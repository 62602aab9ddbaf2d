import ResearchRecords.Text.Utf8

/-!
Percent encoding. A byte that may not stand in its place is written as a percent sign and two hex
digits; which bytes may stand is a parameter, since each part of an address has its own set. The
form encoding of query pairs has the smallest set and writes a space as a plus sign.
-/
namespace ResearchRecords.Text

namespace Percent

def upperHexDigit (n : Nat) : Char :=
  if n < 10 then Char.ofNat ('0'.toNat + n) else Char.ofNat ('A'.toNat + (n - 10))

def hexValue? (c : Char) : Option Nat :=
  if '0' ≤ c ∧ c ≤ '9' then some (c.toNat - '0'.toNat)
  else if 'a' ≤ c ∧ c ≤ 'f' then some (c.toNat - 'a'.toNat + 10)
  else if 'A' ≤ c ∧ c ≤ 'F' then some (c.toNat - 'A'.toNat + 10)
  else none

def escapeByte (b : UInt8) : List Char :=
  ['%', upperHexDigit (b.toNat / 16), upperHexDigit (b.toNat % 16)]

/-- A byte below 128 that may stand is its own character; every other one is escaped. -/
def encodeByte (keep : Char → Bool) (b : UInt8) : List Char :=
  if b < 0x80 ∧ keep (Char.ofNat b.toNat) then [Char.ofNat b.toNat] else escapeByte b

def encodeChars (keep : Char → Bool) (s : List Char) : List Char :=
  (Utf8.encode (String.ofList s)).flatMap (encodeByte keep)

/-- The bytes a text stands for. A percent sign without two hex digits stands for itself. -/
def decodeBytes : List Char → Bytes
  | [] => []
  | '%' :: h :: l :: rest =>
    match hexValue? h, hexValue? l with
    | some a, some b => UInt8.ofNat (a * 16 + b) :: decodeBytes rest
    | _, _ => Utf8.encode "%" ++ decodeBytes (h :: l :: rest)
  | c :: rest => Utf8.encode (String.singleton c) ++ decodeBytes rest

end Percent

namespace Form

/-- The bytes that stand for themselves in a query pair. -/
def isKept (c : Char) : Bool :=
  c.isAlphanum || c == '*' || c == '-' || c == '.' || c == '_'

def encodeByte (b : UInt8) : List Char :=
  if b = 0x20 then ['+'] else Percent.encodeByte isKept b

def encode (s : String) : String := String.ofList ((Utf8.encode s).flatMap encodeByte)

/-- A pair is a name with a value, or a name alone. -/
def encodePair : String × Option String → String
  | (name, none) => encode name
  | (name, some value) => encode name ++ "=" ++ encode value

def encodePairs (pairs : List (String × Option String)) : String :=
  "&".intercalate (pairs.map encodePair)

def decode (s : List Char) : String :=
  Utf8.decodeLossy (Percent.decodeBytes (s.map fun c => if c = '+' then ' ' else c))

def decodePair (s : List Char) : String × Option String :=
  match s.span (· != '=') with
  | (name, []) => (decode name, none)
  | (name, _ :: value) => (decode name, some (decode value))

def splitPairs (s : List Char) : List (List Char) := (s.splitOn '&').filter (!·.isEmpty)

def decodePairs (s : String) : List (String × Option String) :=
  (splitPairs s.toList).map decodePair

end Form

end ResearchRecords.Text
