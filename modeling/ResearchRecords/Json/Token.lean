import ResearchRecords.Json.Value
import ResearchRecords.Text.Utf8

/-!
The tokens of a JSON text. A text that is not well formed still has tokens: they end with a broken
one, which says what is wrong there. A string keeps its pieces as written, since a string that is
passed over is held to weaker rules than one that is read.
-/
namespace ResearchRecords.Json

/-- A piece of a written string: a byte that stands for itself, an escaped character, or a code unit
given by four hex digits. -/
inductive Piece
  | byte (b : UInt8)
  | escaped (c : Char)
  | unit (n : Nat)
  deriving DecidableEq, Repr

/-- Why a string has no closing quotation mark. -/
inductive TextDefect
  | ended
  | control
  | escape
  | hexDigits
  deriving DecidableEq, Repr

def TextDefect.fault : TextDefect → Fault
  | .ended => .endInString
  | .control => .controlCharacter
  | .escape => .invalidEscape
  | .hexDigits => .invalidEscape

/-- Why there is no value in a place for one. -/
inductive Defect
  | absent
  | stray
  | word (ended : Bool)
  | numeral (ended : Bool)
  | text (pieces : List Piece) (defect : TextDefect)
  | colon (ended : Bool)
  deriving DecidableEq, Repr

inductive Token
  | openList
  | closeList
  | openObject
  | closeObject
  | comma
  | colon
  | null
  | bool (b : Bool)
  | number (n : Numeral)
  | text (pieces : List Piece)
  | broken (defect : Defect)
  deriving DecidableEq, Repr

namespace Piece

def isLowSurrogate (n : Nat) : Bool := 0xDC00 ≤ n && n ≤ 0xDFFF

def isHighSurrogate (n : Nat) : Bool := 0xD800 ≤ n && n ≤ 0xDBFF

def surrogatePair (high low : Nat) : Char :=
  Char.ofNat (0x10000 + (high - 0xD800) * 0x400 + (low - 0xDC00))

def charBytes (c : Char) : Bytes := Text.Utf8.encode (String.singleton c)

/-- The fault of a high surrogate that no code unit follows. -/
def afterHighSurrogate : List Piece → Option TextDefect → Fault
  | [], some .ended => .endInString
  | [], some .hexDigits => .invalidEscape
  | _, _ => .incompleteSurrogatePair

/-- The bytes a string denotes, up to its end or its first fault. -/
def bytes (defect : Option TextDefect) : List Piece → Except Fault Bytes
  | [] =>
    match defect with
    | none => .ok []
    | some d => .error d.fault
  | .byte b :: rest => do return b :: (← bytes defect rest)
  | .escaped c :: rest => do return charBytes c ++ (← bytes defect rest)
  | .unit n :: rest =>
    if isLowSurrogate n then .error .loneSurrogate
    else if isHighSurrogate n then
      match rest with
      | .unit m :: rest =>
        if isLowSurrogate m then do return charBytes (surrogatePair n m) ++ (← bytes defect rest)
        else .error .loneSurrogate
      | rest => .error (afterHighSurrogate rest defect)
    else do return charBytes (Char.ofNat n) ++ (← bytes defect rest)

end Piece

/-- The string that complete pieces denote; its bytes must be UTF-8 as a whole. -/
def decodePieces (pieces : List Piece) : Except Fault String := do
  match Text.Utf8.decode? (← Piece.bytes none pieces) with
  | some s => return s
  | none => throw .invalidCodePoint

/-- The fault of a string without an end. -/
def brokenPieces (pieces : List Piece) (defect : TextDefect) : Fault :=
  match Piece.bytes (some defect) pieces with
  | .error fault => fault
  | .ok _ => defect.fault

/-- The fault of a missing value that was to be read. -/
def Defect.fault : Defect → Fault
  | .absent => .endInValue
  | .stray => .expectedValue
  | .word true => .endInValue
  | .word false => .expectedWord
  | .numeral true => .endInValue
  | .numeral false => .invalidNumber
  | .text pieces defect => brokenPieces pieces defect
  | .colon true => .endInObject
  | .colon false => .expectedColon

/-- The fault of a missing value that was to be passed over. -/
def Defect.skipFault : Defect → Fault
  | .numeral _ => .invalidNumber
  | .text _ defect => defect.fault
  | defect => defect.fault

end ResearchRecords.Json
