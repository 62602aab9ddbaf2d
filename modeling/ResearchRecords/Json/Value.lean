import ResearchRecords.Json.Members
import ResearchRecords.Json.Number

/-!
JSON values. An object keeps its members as they are written, repetitions included; the canonical
form of a value has its members in order at every depth. Two values with one canonical form denote
the same document.
-/
namespace ResearchRecords.Json

inductive Value
  | null
  | bool (b : Bool)
  | number (n : Number)
  | string (s : String)
  | array (items : List Value)
  | object (members : List (String × Value))
  deriving Inhabited

namespace Value

def found : Value → Found
  | .null => .null
  | .bool b => .boolean b
  | .number n => n.found
  | .string s => .string s
  | .array _ => .list
  | .object _ => .object

def mistyped (value : Value) (expected : String) : Fault := .invalidType value.found expected

def isNull : Value → Bool
  | .null => true
  | _ => false

def text (s : String) : Value := .string s

def natural (n : Nat) : Value := .number (.natural n)

def ofOption (f : α → Value) : Option α → Value
  | none => .null
  | some a => f a

mutual

def canonical : Value → Value
  | .array items => .array (canonicalItems items)
  | .object members => .object (Members.ordered (canonicalMembers members))
  | value => value

def canonicalItems : List Value → List Value
  | [] => []
  | item :: rest => item.canonical :: canonicalItems rest

def canonicalMembers : Members Value → Members Value
  | [] => []
  | (name, value) :: rest => (name, value.canonical) :: canonicalMembers rest

end

end Value

end ResearchRecords.Json
