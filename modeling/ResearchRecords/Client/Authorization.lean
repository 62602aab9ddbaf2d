import ResearchRecords.Client.Fault
import ResearchRecords.Text.Base64

/-!
The authorization of a request: the word Basic with the base64 form of a user, a colon and a
password. That of the settings is made once, and it has to be the value of a header. An address
that names a user has one of its own.
-/
namespace ResearchRecords

open Text (Base64.digit Base64.encodeChars)

namespace Client

def basicAuthorization (user password : String) : String :=
  "Basic " ++ Text.Base64.encode (Text.Utf8.encode (user ++ ":" ++ password))

/-- Characters that may stand in a header. -/
def isHeaderChar (c : Char) : Bool := c == '\t' || 0x20 ≤ c.toNat && c.toNat < 0x7F

/-- The value of a header, unless it holds a character that may not stand there. -/
def headerValue? (text : String) : Option String :=
  if text.toList.all isHeaderChar then some text else none

/-- The header for a user and a password. -/
def basicHeader (user password : String) : Except ArgumentFault String :=
  match headerValue? (basicAuthorization user password) with
  | some value => .ok value
  | none => .error .invalidCredentials

/-- The authorization of the user that an address names. -/
def loginAuthorization? (url : Url) : Option String :=
  url.login?.map fun login => basicAuthorization login.1 (login.2.getD "")

theorem isHeaderChar_digit (n : Nat) : isHeaderChar (Base64.digit n) = true := by
  have hsmall : ∀ n < 64, isHeaderChar (Base64.digit n) = true := by decide
  by_cases h : n < 64
  · exact hsmall n h
  · have hslash : Base64.digit n = '/' := by
      unfold Base64.digit
      repeat rw [if_neg (by omega)]
    rw [hslash]
    rfl

theorem all_isHeaderChar_encodeChars (bytes : Bytes) :
    (Base64.encodeChars bytes).all isHeaderChar = true := by
  have hpadding : isHeaderChar '=' = true := by decide
  fun_induction Base64.encodeChars bytes with
  | case1 => rfl
  | case2 a => simp [isHeaderChar_digit, hpadding]
  | case3 a b => simp [isHeaderChar_digit, hpadding]
  | case4 a b c rest ih => simp [isHeaderChar_digit, ih]

/-- No character of an authorization keeps it from being a header. -/
theorem headerValue?_basicAuthorization (user password : String) :
    headerValue? (basicAuthorization user password) = some (basicAuthorization user password) := by
  have hscheme : "Basic ".toList.all isHeaderChar = true := by decide
  refine if_pos ?_
  rw [basicAuthorization, String.toList_append, List.all_append, hscheme, Text.Base64.encode,
    String.toList_ofList, all_isHeaderChar_encodeChars]
  rfl

theorem basicHeader_eq (user password : String) :
    basicHeader user password = .ok (basicAuthorization user password) := by
  rw [basicHeader, headerValue?_basicAuthorization]

end Client

end ResearchRecords
