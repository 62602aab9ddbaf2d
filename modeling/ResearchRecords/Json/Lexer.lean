import ResearchRecords.Json.Token
import ResearchRecords.Text.Percent

/-!
Reading tokens. Each function reads one part from the front of a text and gives what follows it; the
whole is `Token.ofBytes`.
-/
namespace ResearchRecords.Json

namespace Lexer

def isSpace (b : UInt8) : Bool := b == 0x20 || b == 0x0A || b == 0x09 || b == 0x0D

def isDigit (b : UInt8) : Bool := 0x30 ≤ b && b ≤ 0x39

def digitValue (b : UInt8) : Nat := b.toNat - 0x30

def hexValue? (b : UInt8) : Option Nat := Text.Percent.hexValue? (Char.ofNat b.toNat)

def hexUnit? (a b c d : UInt8) : Option Nat := do
  let a ← hexValue? a
  let b ← hexValue? b
  let c ← hexValue? c
  let d ← hexValue? d
  return a * 0x1000 + b * 0x100 + c * 0x10 + d

/-- The character that a backslash and this one stand for. -/
def shortEscape? (c : Char) : Option Char :=
  match c with
  | '"' => some '"'
  | '\\' => some '\\'
  | '/' => some '/'
  | 'b' => some '\x08'
  | 'f' => some '\x0c'
  | 'n' => some '\n'
  | 'r' => some '\x0d'
  | 't' => some '\t'
  | _ => none

/-- The pieces of a string after its opening quotation mark, and what follows the closing one. -/
def pieces : Bytes → List Piece × Except TextDefect Bytes
  | [] => ([], .error .ended)
  | b :: rest =>
    if b = 0x22 then ([], .ok rest)
    else if b = 0x5C then
      match rest with
      | [] => ([], .error .ended)
      | e :: rest =>
        match shortEscape? (Char.ofNat e.toNat) with
        | some c =>
          let (tail, rest) := pieces rest
          (.escaped c :: tail, rest)
        | none =>
          if e = 0x75 then
            match rest with
            | h₁ :: h₂ :: h₃ :: h₄ :: rest =>
              match hexUnit? h₁ h₂ h₃ h₄ with
              | some n =>
                let (tail, rest) := pieces rest
                (.unit n :: tail, rest)
              | none => ([], .error .hexDigits)
            | _ => ([], .error .ended)
          else ([], .error .escape)
    else if b < 0x20 then ([], .error .control)
    else
      let (tail, rest) := pieces rest
      (.byte b :: tail, rest)

def text (s : Bytes) : Token × Bytes :=
  match pieces s with
  | (parts, .ok rest) => (.text parts, rest)
  | (parts, .error defect) => (.broken (.text parts defect), [])

/-- A token spelled by the rest of a word. -/
def word : Bytes → Token → Bytes → Token × Bytes
  | [], token, rest => (token, rest)
  | _ :: _, _, [] => (.broken (.word true), [])
  | l :: letters, token, b :: rest =>
    if b = l then word letters token rest else (.broken (.word false), [])

def digits (s : Bytes) : List Nat × Bytes :=
  ((s.takeWhile isDigit).map digitValue, s.dropWhile isDigit)

/-- An optional minus sign. -/
def minus : Bytes → Bool × Bytes
  | 0x2D :: rest => (true, rest)
  | s => (false, s)

/-- The whole part: a zero stands alone. The failure tells whether the text ended. -/
def whole : Bytes → Except Bool (List Nat × Bytes)
  | [] => .error true
  | 0x30 :: rest =>
    match rest with
    | [] => .ok ([0], [])
    | b :: rest => if isDigit b then .error false else .ok ([0], b :: rest)
  | b :: rest => if isDigit b then .ok (digits (b :: rest)) else .error false

def someDigits (s : Bytes) : Except Bool (List Nat × Bytes) :=
  match digits s with
  | ([], rest) => .error rest.isEmpty
  | (ds, rest) => .ok (ds, rest)

def fraction : Bytes → Except Bool (Option (List Nat) × Bytes)
  | 0x2E :: rest => do
    let (ds, rest) ← someDigits rest
    return (some ds, rest)
  | s => .ok (none, s)

def sign : Bytes → Bool × Bytes
  | 0x2B :: rest => (false, rest)
  | 0x2D :: rest => (true, rest)
  | s => (false, s)

def isExponentMark (b : UInt8) : Bool := b == 0x65 || b == 0x45

def exponent : Bytes → Except Bool (Option (Bool × List Nat) × Bytes)
  | [] => .ok (none, [])
  | b :: rest =>
    if isExponentMark b then do
      let (down, rest) := sign rest
      let (ds, rest) ← someDigits rest
      return (some (down, ds), rest)
    else .ok (none, b :: rest)

def numeral (s : Bytes) : Except Bool (Numeral × Bytes) := do
  let (negative, s) := minus s
  let (whole, s) ← whole s
  let (fraction, s) ← fraction s
  let (exponent, s) ← exponent s
  return (⟨negative, whole, fraction, exponent⟩, s)

def number (s : Bytes) : Token × Bytes :=
  match numeral s with
  | .ok (n, rest) => (.number n, rest)
  | .error ended => (.broken (.numeral ended), [])

/-- The token that begins with the first of these bytes, and what follows it. -/
def first (b : UInt8) (rest : Bytes) : Token × Bytes :=
  if b = 0x5B then (.openList, rest)
  else if b = 0x5D then (.closeList, rest)
  else if b = 0x7B then (.openObject, rest)
  else if b = 0x7D then (.closeObject, rest)
  else if b = 0x2C then (.comma, rest)
  else if b = 0x3A then (.colon, rest)
  else if b = 0x22 then text rest
  else if b = 0x6E then word [0x75, 0x6C, 0x6C] .null rest
  else if b = 0x74 then word [0x72, 0x75, 0x65] (.bool true) rest
  else if b = 0x66 then word [0x61, 0x6C, 0x73, 0x65] (.bool false) rest
  else if b = 0x2D ∨ isDigit b then number (b :: rest)
  else (.broken .stray, [])

/-- What follows a part of a text is never longer than the text, so the tokens come to an end. -/
theorem length_of_pieces {s rest : Bytes} (h : (pieces s).2 = .ok rest) :
    rest.length < s.length := by
  fun_induction pieces s with
  | case4 _ _ _ _ _ _ hp _ ih => have := ih (by rw [hp]; exact h); grind
  | case5 _ _ _ _ _ _ _ _ _ hp _ _ ih =>
    have := ih (by rw [hp]; exact h); simp only [List.length_cons]; omega
  | case10 _ _ _ _ _ _ _ hp ih => have := ih (by rw [hp]; exact h); grind
  | _ => grind

theorem length_text_le (s : Bytes) : (text s).2.length ≤ s.length := by
  unfold text
  split
  · next hp => exact Nat.le_of_lt (length_of_pieces (congrArg Prod.snd hp))
  · simp

theorem length_word_le (letters : Bytes) (token : Token) (s : Bytes) :
    (word letters token s).2.length ≤ s.length := by
  fun_induction word letters token s <;> grind

theorem length_digits_le (s : Bytes) : (digits s).2.length ≤ s.length :=
  (List.dropWhile_suffix isDigit).length_le

theorem length_minus_le (s : Bytes) : (minus s).2.length ≤ s.length := by
  unfold minus; split <;> simp

theorem length_sign_le (s : Bytes) : (sign s).2.length ≤ s.length := by
  unfold sign; split <;> simp

theorem length_of_whole {s rest : Bytes} {ds : List Nat} (h : whole s = .ok (ds, rest)) :
    rest.length < s.length := by
  unfold whole at h
  split at h
  · simp at h
  · grind
  · next b rest _ =>
    split at h
    · next hb =>
      have := length_digits_le rest
      simp [digits, hb] at h this
      grind
    · simp at h

theorem length_of_someDigits {s rest : Bytes} {ds : List Nat}
    (h : someDigits s = .ok (ds, rest)) : rest.length ≤ s.length := by
  have := length_digits_le s
  unfold someDigits at h
  grind

theorem length_of_fraction {s rest : Bytes} {ds : Option (List Nat)}
    (h : fraction s = .ok (ds, rest)) : rest.length ≤ s.length := by
  unfold fraction at h
  split at h
  · simp [bind, Except.bind, pure, Except.pure] at h
    split at h
    · simp at h
    · next hd => have := length_of_someDigits hd; grind
  · grind

theorem length_of_exponent {s rest : Bytes} {e : Option (Bool × List Nat)}
    (h : exponent s = .ok (e, rest)) : rest.length ≤ s.length := by
  unfold exponent at h
  split at h
  · grind
  · next b rest =>
    have := length_sign_le rest
    simp [bind, Except.bind, pure, Except.pure] at h
    split at h
    · split at h
      · simp at h
      · next hd => have := length_of_someDigits hd; grind
    · grind

theorem length_of_numeral {s rest : Bytes} {n : Numeral} (h : numeral s = .ok (n, rest)) :
    rest.length < s.length := by
  have := length_minus_le s
  simp [numeral, bind, Except.bind, pure, Except.pure] at h
  split at h
  · simp at h
  · next hw =>
    have := length_of_whole hw
    split at h
    · simp at h
    · next hf =>
      have := length_of_fraction hf
      split at h
      · simp at h
      · next he =>
        have := length_of_exponent he
        grind

theorem length_number_le (b : UInt8) (rest : Bytes) :
    (number (b :: rest)).2.length ≤ rest.length := by
  unfold number
  split
  · next hn => exact Nat.le_of_lt_succ (length_of_numeral hn)
  · simp

theorem length_first_le (b : UInt8) (rest : Bytes) :
    (first b rest).2.length ≤ rest.length := by
  have := length_text_le rest
  have := length_number_le b rest
  simp only [first, apply_ite Prod.snd, apply_ite List.length]
  repeat' split
  all_goals simp [*, length_word_le]

end Lexer

/-- The tokens of a text. Spaces, tabs and line breaks between tokens do not count, and nothing is
read after a broken token. -/
def Token.ofBytes : Bytes → List Token
  | [] => []
  | b :: rest =>
    if Lexer.isSpace b then Token.ofBytes rest
    else
      match _h : Lexer.first b rest with
      | (token, after) => token :: Token.ofBytes after
termination_by s => s.length
decreasing_by
  · simp
  · have := Lexer.length_first_le b rest
    grind

end ResearchRecords.Json
