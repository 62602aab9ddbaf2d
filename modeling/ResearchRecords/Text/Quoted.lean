import ResearchRecords.Text.Printable

/-!
Quoted texts, as messages show them: between quotation marks, with a backslash before a quotation
mark or a backslash, short escapes for the common controls, and the code point in braces for every
other character that could not be read in place.
-/
namespace ResearchRecords.Text

def lowerHexDigits (n : Nat) : List Char := Nat.toDigits 16 n

namespace Quoted

def escape (c : Char) : List Char :=
  if c = '\x00' then ['\\', '0']
  else if c = '\t' then ['\\', 't']
  else if c = '\n' then ['\\', 'n']
  else if c = '\x0d' then ['\\', 'r']
  else if c = '\\' ∨ c = '"' then ['\\', c]
  else if isGraphemeExtender c ∨ ¬ isPrintable c then
    ['\\', 'u', '\x7b'] ++ lowerHexDigits c.toNat ++ ['\x7d']
  else [c]

def encode (s : String) : String :=
  String.ofList ('"' :: s.toList.flatMap escape ++ ['"'])

def encodeOption : Option String → String
  | none => "None"
  | some s => "Some(" ++ encode s ++ ")"

def encodeList (items : List String) : String :=
  "[" ++ ", ".intercalate (items.map encode) ++ "]"

end Quoted

end ResearchRecords.Text
