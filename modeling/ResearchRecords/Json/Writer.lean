import ResearchRecords.Json.Value
import ResearchRecords.Text.Utf8

/-!
Writing JSON values, on one line or with two spaces of indentation. Objects keep the order of their
members; characters outside ASCII stand for themselves.
-/
namespace ResearchRecords.Json

namespace Writer

def hexDigit (n : Nat) : Char :=
  if n < 10 then Char.ofNat ('0'.toNat + n) else Char.ofNat ('a'.toNat + (n - 10))

/-- Quotation marks, backslashes and controls are escaped, and nothing else. -/
def escape (c : Char) : List Char :=
  if c = '"' then ['\\', '"']
  else if c = '\\' then ['\\', '\\']
  else if c = '\x08' then ['\\', 'b']
  else if c = '\t' then ['\\', 't']
  else if c = '\n' then ['\\', 'n']
  else if c = '\x0c' then ['\\', 'f']
  else if c = '\x0d' then ['\\', 'r']
  else if c.toNat < 0x20 then
    ['\\', 'u', '0', '0', hexDigit (c.toNat / 16), hexDigit (c.toNat % 16)]
  else [c]

def string (s : String) : List Char := '"' :: s.toList.flatMap escape ++ ['"']

def word (s : String) : List Char := s.toList

/-- Texts between brackets, with a separator between any two. -/
def enclosed (first last : Char) (separator : List Char) (texts : List (List Char)) : List Char :=
  first :: separator.intercalate texts ++ [last]

def scalar : Value → List Char
  | .null => word "null"
  | .bool true => word "true"
  | .bool false => word "false"
  | .number n => n.text.toList
  | .string s => string s
  | .array _ => []
  | .object _ => []

mutual

def compact : Value → List Char
  | .array items => enclosed '[' ']' [','] (compactItems items)
  | .object members => enclosed '\x7b' '\x7d' [','] (compactMembers members)
  | value => scalar value

def compactItems : List Value → List (List Char)
  | [] => []
  | item :: rest => compact item :: compactItems rest

def compactMembers : List (String × Value) → List (List Char)
  | [] => []
  | (name, value) :: rest => (string name ++ ':' :: compact value) :: compactMembers rest

end

def newline (depth : Nat) : List Char := '\n' :: List.replicate (2 * depth) ' '

/-- Like `enclosed`, each text on a line of its own; empty brackets stay together. -/
def indented (first last : Char) (depth : Nat) : List (List Char) → List Char
  | [] => [first, last]
  | texts =>
    first :: newline (depth + 1) ++ (',' :: newline (depth + 1)).intercalate texts ++
      newline depth ++ [last]

mutual

def pretty (depth : Nat) : Value → List Char
  | .array items => indented '[' ']' depth (prettyItems (depth + 1) items)
  | .object members => indented '\x7b' '\x7d' depth (prettyMembers (depth + 1) members)
  | value => scalar value

def prettyItems (depth : Nat) : List Value → List (List Char)
  | [] => []
  | item :: rest => pretty depth item :: prettyItems depth rest

def prettyMembers (depth : Nat) : List (String × Value) → List (List Char)
  | [] => []
  | (name, value) :: rest =>
    (string name ++ ':' :: ' ' :: pretty depth value) :: prettyMembers depth rest

end

end Writer

def Value.compact (value : Value) : String := String.ofList (Writer.compact value)

def Value.pretty (value : Value) : String := String.ofList (Writer.pretty 0 value)

/-- The bytes of a value on one line. -/
def Value.toBytes (value : Value) : Bytes := Text.Utf8.encode value.compact

end ResearchRecords.Json
