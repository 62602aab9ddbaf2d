import ResearchRecords.Document.Fault
import ResearchRecords.Json.Node
import ResearchRecords.Record.Basic

/-!
Documents as the repository sends them: primary resources, and further resources that are included
with them. A resource names the targets of its relationships by linkage: nothing, one identifier or
several. What is not an identifier is passed over, and so is an identifier without a type or an id.
-/
namespace ResearchRecords

namespace Document

structure Identifier where
  type : Option String
  id : Option String
  deriving DecidableEq, Repr

inductive Linkage
  | absent
  | one (identifier : Identifier)
  | many (identifiers : List Identifier)
  deriving DecidableEq, Repr

/-- The type and the id of a target. -/
abbrev Target := String × String

def Identifier.target? (identifier : Identifier) : Option Target :=
  match identifier.type, identifier.id with
  | some type, some id => some (type, id)
  | _, _ => none

def Linkage.identifiers : Linkage → List Identifier
  | .absent => []
  | .one identifier => [identifier]
  | .many identifiers => identifiers

def Linkage.targets (linkage : Linkage) : List Target :=
  linkage.identifiers.filterMap Identifier.target?

structure Resource where
  type : String
  id : Option String
  attributes : Json.Members Json.Value
  relationships : Json.Members Linkage

inductive Primary
  | empty
  | one (resource : Resource)
  | many (resources : List Resource)

end Document

structure Document where
  primary : Document.Primary
  included : List Document.Resource

namespace Document

def Resource.linkage (resource : Resource) (name : String) : Linkage :=
  (resource.relationships.get? name).getD .absent

/-- The included resource of this type and id; of several, the last. -/
def included? (document : Document) (target : Target) : Option Resource :=
  document.included.reverse.find? fun r => r.type == target.1 && r.id == some target.2

def nonEmpty : Json.Value → Option String
  | .string s => if s.isEmpty then none else some s
  | _ => none

def Identifier.ofMembers (members : Json.Members Json.Value) : Identifier :=
  ⟨members.get? "type" >>= nonEmpty, members.get? "id" >>= nonEmpty⟩

def Identifier.ofValue? : Json.Value → Option Identifier
  | .object members => some (.ofMembers members)
  | _ => none

def Linkage.ofValue : Json.Value → Linkage
  | .object members => .one (.ofMembers members)
  | .array items => .many (items.filterMap Identifier.ofValue?)
  | _ => .absent

/-- The linkage of a relationship object, or of a list of its one field. -/
def Linkage.ofRelationship : Json.Value → Except Json.Fault Linkage
  | .object members => .ok (((Json.Members.get? members "data").map Linkage.ofValue).getD .absent)
  | .array [] => .ok .absent
  | .array [data] => .ok (Linkage.ofValue data)
  | .array items => .error (.invalidLength items.length "fewer elements in array")
  | value => .error (value.mistyped "struct RelationshipObject")

namespace Resource

def readType : Json.Value → Except Json.Fault String
  | .string s => .ok s
  | value => .error (value.mistyped "a string")

def readId : Json.Value → Except Json.Fault (Option String)
  | .null => .ok none
  | .string s => .ok (some s)
  | value => .error (value.mistyped "a string")

def readAttributes : Json.Value → Except Json.Fault (Json.Members Json.Value)
  | .null => .ok []
  | .object members => .ok members
  | value => .error (value.mistyped "a map")

def readRelationships : Json.Value → Except Json.Fault (Json.Members Linkage)
  | .null => .ok []
  | .object members =>
    members.mapM fun (name, value) => do return (name, ← Linkage.ofRelationship value)
  | value => .error (value.mistyped "a map")

/-- A member that may be missing, which is the same as null. -/
def readMember (members : Json.Members Json.Value) (name : String)
    (read : Json.Value → Except Json.Fault α) : Except Json.Fault α :=
  read ((members.get? name).getD .null)

def ofMembers (members : Json.Members Json.Value) : Except Json.Fault Resource := do
  let attributes ← readMember members "attributes" readAttributes
  let id ← readMember members "id" readId
  let relationships ← readMember members "relationships" readRelationships
  match members.get? "type" with
  | none => throw (.missingField "type")
  | some type => return ⟨← readType type, id, attributes, relationships⟩

/-- A resource as the list of its type, id, attributes and relationships. -/
def ofItems (items : List Json.Value) : Except Json.Fault Resource := do
  match items with
  | [] => throw (.invalidLength 0 "struct Resource with 4 elements")
  | type :: rest =>
    let type ← readType type
    let id ← readId (rest.getD 0 .null)
    let attributes ← readAttributes (rest.getD 1 .null)
    let relationships ← readRelationships (rest.getD 2 .null)
    if 4 < items.length then throw (.invalidLength items.length "fewer elements in array")
    return ⟨type, id, attributes, relationships⟩

def ofValue : Json.Value → Except Json.Fault Resource
  | .object members => ofMembers members
  | .array items => ofItems items
  | value => .error (value.mistyped "struct Resource")

end Resource

/-- Primary data: several resources if it can be read so, and otherwise one. -/
def Primary.ofValue (value : Json.Value) : Except Json.Fault Primary :=
  let several? :=
    match value with
    | .array items => (items.mapM Resource.ofValue).toOption
    | _ => none
  match value, several? with
  | .null, _ => .ok .empty
  | _, some resources => .ok (.many resources)
  | value, none =>
    match Resource.ofValue value with
    | .ok resource => .ok (.one resource)
    | .error _ => .error (.noVariantOf "PrimaryData")

def readIncluded : Json.Value → Except Json.Fault (List Resource)
  | .null => .ok []
  | .array items => items.mapM Resource.ofValue
  | value => .error (value.mistyped "a sequence")

def ofValue : Json.Value → Except Fault Document
  | .object members => ofJson do
    let primary ← Resource.readMember members "data" Primary.ofValue
    let included ← Resource.readMember members "included" readIncluded
    return ⟨primary, included⟩
  | _ => .error .notObject

def parse (body : Bytes) : Except Fault Document := do
  ofValue (← ofJson (Json.parse body))

end Document

end ResearchRecords
