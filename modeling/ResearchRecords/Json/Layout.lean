import ResearchRecords.Json.Node

/-!
Records with named fields, read from a tree. Such a record is an object, whose unknown members are
passed over and whose known ones may occur once, or a list of the values in the order of the fields.
-/
namespace ResearchRecords.Json

/-- When a field has to be there: in objects and lists, in lists only, or in neither. -/
inductive Presence
  | always
  | inLists
  | never
  deriving DecidableEq, Repr

/-- One field, by what its value adds to the record. -/
structure Field (σ : Type) where
  name : String
  presence : Presence
  read : Nat → Node → σ → Except Fault σ

/-- A record by its name and fields. -/
structure Layout (σ : Type) where
  name : String
  fields : List (Field σ)
  blank : σ

namespace Node

def string : Node → Except Fault String
  | .text pieces => decodePieces pieces
  | node => .error (node.mistyped "a string")

/-- The path of a file. -/
def path : Node → Except Fault String
  | .text pieces => decodePieces pieces
  | node => .error (node.mistyped "path string")

def boolean : Node → Except Fault Bool
  | .bool b => .ok b
  | node => .error (node.mistyped "a boolean")

/-- An integer in a range; a number with a fraction or an exponent is none. -/
def integer (low high : Int) (expected : String) : Node → Except Fault Int
  | .number numeral => do
    let n ← numeral.number
    match n.found with
    | .integer i =>
      if low ≤ i ∧ i ≤ high then return i else throw (.invalidValue n.found expected)
    | found => throw (.invalidType found expected)
  | node => .error (node.mistyped expected)

def signed64 : Node → Except Fault Int := integer (-0x8000000000000000) 0x7FFFFFFFFFFFFFFF "i64"

def unsigned64 (node : Node) : Except Fault Nat := do
  return (← integer 0 0xFFFFFFFFFFFFFFFF "u64" node).toNat

def optional (read : Node → Except Fault α) : Node → Except Fault (Option α)
  | .null => .ok none
  | node => some <$> read node

def choose (options : List (String × α)) (name : String) : Except Fault α :=
  match options.lookup name with
  | some a => .ok a
  | none => .error (.unknownVariant name (options.map Prod.fst))

def unit : Node → Except Fault Unit
  | .null => .ok ()
  | node => .error (node.mistyped "unit")

/-- The fault of an object that names no choice. -/
def noChoice : ObjectEnd → Fault
  | .ended => .endInValue
  | .noKey (.null) => .invalidType .null "variant identifier"
  | .noKey (.bool b) => .invalidType (.boolean b) "variant identifier"
  | .noKey (.number n) => mistyped "variant identifier" (.number n)
  | .noKey .openList => .invalidType .list "variant identifier"
  | .noKey .openObject => .invalidType .object "variant identifier"
  | .noKey (.broken defect) => defect.fault
  | _ => .expectedValue

/-- One of several named choices: its name, or an object that maps the name to null. -/
def choice (room : Nat) (options : List (String × α)) : Node → Except Fault α
  | .text pieces => do choose options (← decodePieces pieces)
  | .object [] ending => do
    let _ ← enter room
    throw (noChoice ending)
  | .object ((key, node) :: rest) ending => do
    let _ ← enter room
    let a ← choose options (← decodePieces key)
    unit node
    match rest, ending with
    | [], .closed => return a
    | [], .ended => throw .endInObject
    | _, _ => throw .expectedValue
  | .missing .absent => .error .endInValue
  | .missing (.text pieces defect) => .error (brokenPieces pieces defect)
  | .missing (.colon ended) => .error (Defect.colon ended).fault
  | _ => .error .expectedValue

/-- The values of a list, each by the same reader. -/
def items (room : Nat) (read : Nat → Node → Except Fault α) : Node → Except Fault (List α)
  | .list nodes ending => do
    let room ← enter room
    let values ← nodes.mapM (read room)
    refuse ending.fault?
    return values
  | node => .error (node.mistyped "a sequence")

/-- The members of an object under any names, in the order of the text. -/
def members (room : Nat) (read : Nat → Node → Except Fault α) :
    Node → Except Fault (List (String × α))
  | .object nodes ending => do
    let room ← enter room
    let values ← nodes.mapM fun (key, node) => do
      let name ← decodePieces key
      return (name, ← read room node)
    refuse ending.fault?
    return values
  | node => .error (node.mistyped "a map")

end Node

namespace Layout

variable {σ : Type}

def size (layout : Layout σ) : String :=
  let n := layout.fields.length
  "struct " ++ layout.name ++ " with " ++ toString n ++ (if n = 1 then " element" else " elements")

/-- Reads members one by one, with the names of the known ones that occurred. -/
def readMembers (layout : Layout σ) (room : Nat) :
    List (List Piece × Node) → List String → σ → Except Fault (List String × σ)
  | [], seen, record => .ok (seen, record)
  | (key, node) :: rest, seen, record => do
    let name ← decodePieces key
    match layout.fields.find? (·.name == name) with
    | none =>
      node.skip
      layout.readMembers room rest seen record
    | some field =>
      if name ∈ seen then throw (.duplicateField name)
      layout.readMembers room rest (name :: seen) (← field.read room node record)

def requireSeen (layout : Layout σ) (seen : List String) : Except Fault Unit :=
  match layout.fields.find? fun f => f.presence == .always && !seen.contains f.name with
  | some f => .error (.missingField f.name)
  | none => .ok ()

def readObject (layout : Layout σ) (room : Nat) (members : List (List Piece × Node))
    (ending : ObjectEnd) : Except Fault σ := do
  let (seen, record) ← layout.readMembers room members [] layout.blank
  refuse ending.fault?
  layout.requireSeen seen
  return record

/-- Reads values in the order of the fields, of which so many came before. -/
def readItems (layout : Layout σ) (room : Nat) (ending : ListEnd) :
    List (Field σ) → Nat → List Node → σ → Except Fault σ
  | [], _, [], record => do
    refuse ending.surplusFault?
    return record
  | [], _, _ :: _, _ => .error .trailingCharacters
  | field :: fields, count, [], record => do
    refuse ending.fault?
    if field.presence = .never then layout.readItems room ending fields (count + 1) [] record
    else throw (.invalidLength count layout.size)
  | field :: fields, count, node :: rest, record => do
    layout.readItems room ending fields (count + 1) rest (← field.read room node record)

def readList (layout : Layout σ) (room : Nat) (items : List Node) (ending : ListEnd) :
    Except Fault σ :=
  layout.readItems room ending layout.fields 0 items layout.blank

def read (layout : Layout σ) (room : Nat) : Node → Except Fault σ
  | .object members ending => do layout.readObject (← Node.enter room) members ending
  | .list items ending => do layout.readList (← Node.enter room) items ending
  | node => .error (node.mistyped ("struct " ++ layout.name))

end Layout

end ResearchRecords.Json
