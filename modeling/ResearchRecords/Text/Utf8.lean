/-!
Texts as bytes. A response body is a list of bytes, and only some such lists are the UTF-8 form of a
string: `decode?` accepts exactly those, and `decodeLossy` replaces each ill-formed stretch by one
replacement character, so that a body can always be shown.
-/
namespace ResearchRecords

abbrev Bytes := List UInt8

namespace Text.Utf8

def encode (s : String) : Bytes := s.toByteArray.data.toList

def decode? (bytes : Bytes) : Option String := String.fromUTF8? bytes.toByteArray

theorem decode?_encode (s : String) : decode? (encode s) = some s := by
  have h : (encode s).toByteArray = s.toByteArray := by
    apply ByteArray.ext
    simp [encode]
  simp only [decode?, String.fromUTF8?, h, dif_pos s.isValidUTF8]
  rfl

/-- The number of bytes that follow a leading byte, and the range of the first of them. Overlong
forms, surrogates and code points above U+10FFFF are shut out by that range. -/
def continuation (lead : UInt8) : Option (Nat × UInt8 × UInt8) :=
  if lead < 0x80 then some (0, 0x80, 0xBF)
  else if lead < 0xC2 then none
  else if lead < 0xE0 then some (1, 0x80, 0xBF)
  else if lead = 0xE0 then some (2, 0xA0, 0xBF)
  else if lead = 0xED then some (2, 0x80, 0x9F)
  else if lead < 0xF0 then some (2, 0x80, 0xBF)
  else if lead = 0xF0 then some (3, 0x90, 0xBF)
  else if lead < 0xF4 then some (3, 0x80, 0xBF)
  else if lead = 0xF4 then some (3, 0x80, 0x8F)
  else none

/-- How many of the bytes, up to `count`, continue a sequence whose next byte lies in the range. -/
def continued : Nat → UInt8 → UInt8 → Bytes → Nat
  | 0, _, _, _ => 0
  | _, _, _, [] => 0
  | count + 1, low, high, b :: rest =>
    if low ≤ b ∧ b ≤ high then 1 + continued count 0x80 0xBF rest else 0

/-- The code point of a complete sequence: the low bits of its bytes in order. -/
def codePoint (lead : UInt8) (rest : Bytes) : Nat :=
  let high :=
    match rest.length with
    | 0 => lead.toNat
    | 1 => lead.toNat % 0x20
    | 2 => lead.toNat % 0x10
    | _ => lead.toNat % 0x08
  rest.foldl (fun acc b => acc * 64 + b.toNat % 64) high

/-- The first character of a text and the bytes it takes; an ill-formed beginning is cut at the
first byte that cannot continue it and read as the replacement character. -/
def firstLossy (lead : UInt8) (rest : Bytes) : Char × Nat :=
  match continuation lead with
  | none => ('\uFFFD', 0)
  | some (count, low, high) =>
    let taken := continued count low high rest
    if taken = count then (Char.ofNat (codePoint lead (rest.take count)), count)
    else ('\uFFFD', taken)

def charsLossy : Bytes → List Char
  | [] => []
  | lead :: rest =>
    (firstLossy lead rest).1 :: charsLossy (rest.drop (firstLossy lead rest).2)
termination_by bytes => bytes.length
decreasing_by
  simp only [List.length_drop, List.length_cons]
  omega

def decodeLossy (bytes : Bytes) : String := String.ofList (charsLossy bytes)

end Text.Utf8

end ResearchRecords
