import ResearchRecords.Json.Writer
import ResearchRecords.Record.Basic

/-!
Records as documents. A document names the targets of a record by their ids; a target without an
id is left out. Attributes that are unset are left out of a brief document and are null in a full
one. In a replacing document, moreover, a relationship to one target that is unset is null, so
that nothing of the stored record is kept.
-/
namespace ResearchRecords

namespace Document

inductive Form
  | brief
  | full
  | replacing
  deriving DecidableEq, Repr

open Json (Value Members)

def identifierValue (kind : Kind) (id : String) : Value :=
  .object [("id", .string id), ("type", .string kind.name)]

def linkageValue (data : Value) : Value := .object [("data", data)]

/-- The linkage of a relationship, if it is written in a document of this form. -/
def linkage? (form : Form) (record : Record) (r : Relationship) : Option Value :=
  match r.cardinality, record.targetIds r with
  | .toOne, [] => if form = .replacing then some (linkageValue .null) else none
  | .toOne, none :: _ => none
  | .toOne, some id :: _ => some (linkageValue (identifierValue r.target id))
  | .toMany, ids =>
    some (linkageValue (.array ((ids.filterMap fun id => id).map (identifierValue r.target))))

def relationshipMembers (form : Form) (record : Record) : Members Value :=
  Members.ordered (record.kind.relationships.filterMap fun r =>
    (linkage? form record r).map fun value => (r.name, value))

def attributeMembers (form : Form) (record : Record) : Members Value :=
  let members := Row.write record.kind.schema record.attributes
  if form = .brief then members.filter fun m => !m.2.isNull else members

def idMembers (record : Record) : Members Value :=
  match record.id with
  | none => []
  | some id => [("id", .string id)]

def optionalObject (name : String) : Members Value → Members Value
  | [] => []
  | members => [(name, .object members)]

def resourceMembers (form : Form) (record : Record) : Members Value :=
  [("attributes", .object (attributeMembers form record))] ++ idMembers record ++
    optionalObject "relationships" (relationshipMembers form record) ++
    [("type", .string record.kind.name)]

def ofRecord (form : Form) (record : Record) : Value :=
  .object [("data", .object (resourceMembers form record))]

end Document

end ResearchRecords
