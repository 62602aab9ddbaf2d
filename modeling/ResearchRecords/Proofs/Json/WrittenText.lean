import ResearchRecords.Json.Lexer
import ResearchRecords.Json.Writer
import ResearchRecords.Proofs.Text.Utf8

/-!
Strings as they are written. Each character is written as one short escape, as one code unit, or as
its own bytes; the lexer finds those pieces again, whatever follows the closing quotation mark, and
they denote the string that was written.
-/
namespace ResearchRecords.Json

open Text

/-- The bytes of some written characters. -/
def bytesOf (s : List Char) : Bytes := s.flatMap String.utf8EncodeChar

theorem bytesOf_cons (c : Char) (s : List Char) :
    bytesOf (c :: s) = String.utf8EncodeChar c ++ bytesOf s := rfl

theorem bytesOf_append (s t : List Char) : bytesOf (s ++ t) = bytesOf s ++ bytesOf t :=
  List.flatMap_append

theorem bytesOf_cons_of_lt {c : Char} (h : c.toNat < 0x80) (s : List Char) :
    bytesOf (c :: s) = UInt8.ofNat c.toNat :: bytesOf s := by
  rw [bytesOf_cons, Utf8.utf8EncodeChar_of_lt h]
  rfl

namespace Writer

def shortEscaped : List Char := ['"', '\\', '\x08', '\t', '\n', '\x0c', '\x0d']

/-- The pieces a character is written in. -/
def pieces (c : Char) : List Piece :=
  if c ∈ shortEscaped then [.escaped c]
  else if c.toNat < 0x20 then [.unit c.toNat]
  else (String.utf8EncodeChar c).map .byte

/-- The letter after the backslash of a short escape. -/
def escapeLetter (c : Char) : Char :=
  if c = '\x08' then 'b' else if c = '\t' then 't' else if c = '\n' then 'n'
  else if c = '\x0c' then 'f' else if c = '\x0d' then 'r' else c

theorem escape_of_shortEscaped {c : Char} (h : c ∈ shortEscaped) :
    escape c = ['\\', escapeLetter c] := by
  simp only [shortEscaped, List.mem_cons, List.not_mem_nil, or_false] at h
  rcases h with rfl | rfl | rfl | rfl | rfl | rfl | rfl <;> decide

theorem escape_of_control {c : Char} (h : c ∉ shortEscaped) (hc : c.toNat < 0x20) :
    escape c = ['\\', 'u', '0', '0', hexDigit (c.toNat / 16), hexDigit (c.toNat % 16)] := by
  simp only [shortEscaped, List.mem_cons, List.not_mem_nil, or_false, not_or] at h
  simp [escape, h, hc]

theorem escape_of_plain {c : Char} (h : c ∉ shortEscaped) (hc : ¬ c.toNat < 0x20) :
    escape c = [c] := by
  simp only [shortEscaped, List.mem_cons, List.not_mem_nil, or_false, not_or] at h
  simp [escape, h, hc]

end Writer

namespace Lexer

theorem pieces_bytes (bytes rest : Bytes)
    (h : ∀ b ∈ bytes, b ≠ 0x22 ∧ b ≠ 0x5C ∧ 0x20 ≤ b) :
    pieces (bytes ++ rest) = (bytes.map .byte ++ (pieces rest).1, (pieces rest).2) := by
  induction bytes with
  | nil => rfl
  | cons b bytes ih =>
    obtain ⟨⟨hquote, hslash, hb⟩, hrest⟩ := List.forall_mem_cons.mp h
    have hcontrol : ¬ b < 0x20 := by simpa using hb
    rw [List.cons_append, pieces.eq_def]
    simp only [if_neg hquote, if_neg hslash, if_neg hcontrol, ih hrest, List.map_cons,
      List.cons_append]

theorem pieces_shortEscape {e : UInt8} {c : Char}
    (h : shortEscape? (Char.ofNat e.toNat) = some c) (rest : Bytes) :
    pieces (0x5C :: e :: rest) = (.escaped c :: (pieces rest).1, (pieces rest).2) := by
  rw [pieces.eq_def]
  simp [h]

theorem pieces_hexEscape {h₁ h₂ h₃ h₄ : UInt8} {n : Nat} (h : hexUnit? h₁ h₂ h₃ h₄ = some n)
    (rest : Bytes) :
    pieces (0x5C :: 0x75 :: h₁ :: h₂ :: h₃ :: h₄ :: rest) =
      (.unit n :: (pieces rest).1, (pieces rest).2) := by
  have hu : shortEscape? (Char.ofNat (0x75 : UInt8).toNat) = none := by decide
  rw [pieces.eq_def]
  simp only [hu, h]
  rfl

theorem pieces_quote (rest : Bytes) : pieces (0x22 :: rest) = ([], .ok rest) := by
  rw [pieces.eq_def]
  rfl

theorem shortEscape?_escapeLetter {c : Char} (h : c ∈ Writer.shortEscaped) :
    (Writer.escapeLetter c).toNat < 0x80 ∧
      shortEscape? (Char.ofNat (UInt8.ofNat (Writer.escapeLetter c).toNat).toNat) = some c := by
  simp only [Writer.shortEscaped, List.mem_cons, List.not_mem_nil, or_false] at h
  rcases h with rfl | rfl | rfl | rfl | rfl | rfl | rfl <;> decide

theorem hexDigit_toNat_lt : ∀ n < 16, (Writer.hexDigit n).toNat < 0x80 := by decide

theorem hexValue?_hexDigit :
    ∀ n < 16, hexValue? (UInt8.ofNat (Writer.hexDigit n).toNat) = some n := by decide

theorem hexUnit?_hexDigits {n : Nat} (h : n < 0x20) :
    hexUnit? 0x30 0x30 (UInt8.ofNat (Writer.hexDigit (n / 16)).toNat)
      (UInt8.ofNat (Writer.hexDigit (n % 16)).toNat) = some n := by
  have hzero : hexValue? 0x30 = some 0 := by decide
  have hhigh := hexValue?_hexDigit (n / 16) (by omega)
  have hlow := hexValue?_hexDigit (n % 16) (by omega)
  have hsum : n / 16 * 16 + n % 16 = n := by omega
  simp [hexUnit?, hzero, hhigh, hlow, hsum]

/-- The bytes of a character that is written as it is neither end a string nor begin an escape. -/
theorem plain_byte {c : Char} (h : c ∉ Writer.shortEscaped) (hc : ¬ c.toNat < 0x20) {b : UInt8}
    (hb : b ∈ String.utf8EncodeChar c) : b ≠ 0x22 ∧ b ≠ 0x5C ∧ 0x20 ≤ b := by
  by_cases hlt : c.toNat < 0x80
  · rw [Utf8.utf8EncodeChar_of_lt hlt, List.mem_singleton] at hb
    subst hb
    simp only [Writer.shortEscaped, List.mem_cons, List.not_mem_nil, or_false, not_or] at h
    have hne : ∀ d : Char, c ≠ d → d.toNat < 0x80 → UInt8.ofNat c.toNat ≠ UInt8.ofNat d.toNat := by
      intro d hd hdlt heq
      apply hd
      apply Char.toNat_inj.mp
      have := congrArg UInt8.toNat heq
      simp only [UInt8.toNat_ofNat'] at this
      omega
    refine ⟨hne '"' h.1 (by decide), hne '\\' h.2.1 (by decide), ?_⟩
    rw [UInt8.le_iff_toNat_le, UInt8.toNat_ofNat']
    show 0x20 ≤ c.toNat % 256
    omega
  · have hle := Utf8.le_of_mem_utf8EncodeChar (Nat.le_of_not_lt hlt) hb
    rw [UInt8.le_iff_toNat_le] at hle
    have hle : 0x80 ≤ b.toNat := hle
    refine ⟨?_, ?_, ?_⟩
    · rintro rfl
      exact absurd hle (by decide)
    · rintro rfl
      exact absurd hle (by decide)
    · rw [UInt8.le_iff_toNat_le]
      show 0x20 ≤ b.toNat
      omega

/-- The lexer takes one written character at a time. -/
theorem pieces_escape (c : Char) (rest : Bytes) :
    pieces (bytesOf (Writer.escape c) ++ rest) =
      (Writer.pieces c ++ (pieces rest).1, (pieces rest).2) := by
  unfold Writer.pieces
  split
  · next h =>
    obtain ⟨hlt, hread⟩ := shortEscape?_escapeLetter h
    rw [Writer.escape_of_shortEscaped h, bytesOf_cons_of_lt (by decide), bytesOf_cons_of_lt hlt]
    exact pieces_shortEscape hread rest
  · next h =>
    split
    · next hc =>
      have hhigh := hexDigit_toNat_lt (c.toNat / 16) (by omega)
      have hlow := hexDigit_toNat_lt (c.toNat % 16) (by omega)
      rw [Writer.escape_of_control h hc]
      repeat rw [bytesOf_cons_of_lt (by decide)]
      rw [bytesOf_cons_of_lt hhigh, bytesOf_cons_of_lt hlow]
      exact pieces_hexEscape (hexUnit?_hexDigits hc) rest
    · next hc =>
      rw [Writer.escape_of_plain h hc]
      have hbytes : bytesOf [c] = String.utf8EncodeChar c := by simp [bytesOf]
      rw [hbytes]
      exact pieces_bytes _ rest fun b hb => plain_byte h hc hb

theorem pieces_written (s : List Char) (rest : Bytes) :
    pieces (bytesOf (s.flatMap Writer.escape) ++ 0x22 :: rest) =
      (s.flatMap Writer.pieces, .ok rest) := by
  induction s with
  | nil => exact pieces_quote rest
  | cons c s ih =>
    rw [List.flatMap_cons, bytesOf_append, List.append_assoc, pieces_escape, ih,
      List.flatMap_cons]

end Lexer

/-- The pieces of a written string. -/
def Writer.textPieces (s : String) : List Piece := s.toList.flatMap Writer.pieces

namespace Piece

theorem charBytes_eq (c : Char) : charBytes c = String.utf8EncodeChar c := by
  simp [charBytes, Utf8.encode_eq_flatMap]

theorem bytes_map_byte (bytes rest : Bytes) (pieces : List Piece)
    (h : Piece.bytes none pieces = .ok rest) :
    Piece.bytes none (bytes.map .byte ++ pieces) = .ok (bytes ++ rest) := by
  induction bytes with
  | nil => exact h
  | cons b bytes ih =>
    rw [List.map_cons, List.cons_append, Piece.bytes, ih]
    rfl

theorem bytes_written (c : Char) (rest : Bytes) (pieces : List Piece)
    (h : Piece.bytes none pieces = .ok rest) :
    Piece.bytes none (Writer.pieces c ++ pieces) = .ok (String.utf8EncodeChar c ++ rest) := by
  unfold Writer.pieces
  split
  · rw [List.singleton_append, Piece.bytes, h, charBytes_eq]
    rfl
  · split
    · next hc =>
      have hlow : isLowSurrogate c.toNat = false := by simp [isLowSurrogate]; omega
      have hhigh : isHighSurrogate c.toNat = false := by simp [isHighSurrogate]; omega
      rw [List.singleton_append, Piece.bytes.eq_def]
      simp only [hlow, hhigh, h, Char.ofNat_toNat, charBytes_eq]
      rfl
    · exact bytes_map_byte _ _ _ h

end Piece

theorem decodePieces_textPieces (s : String) : decodePieces (Writer.textPieces s) = .ok s := by
  have hbytes : ∀ cs : List Char,
      Piece.bytes none (cs.flatMap Writer.pieces) = .ok (bytesOf cs) := by
    intro cs
    induction cs with
    | nil => rfl
    | cons c cs ih => exact Piece.bytes_written c _ _ ih
  have hutf8 : bytesOf s.toList = Utf8.encode s := (Utf8.encode_eq_flatMap s).symm
  rw [decodePieces, Writer.textPieces, hbytes, hutf8]
  simp only [bind, Except.bind, Utf8.decode?_encode]
  rfl

end ResearchRecords.Json
