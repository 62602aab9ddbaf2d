import ResearchRecords.Document.Encode

/-!
The document of an update. A full document says nothing of a relationship to one target that is
unset, and the stored record would keep its target. So null is put under the name of each of them,
unless the document has something there.
-/
namespace ResearchRecords

namespace Json.Members

variable {α : Type}

/-- Puts a member in its place among ordered ones, unless there is one of its name. -/
def insertNew (name : String) (value : α) (members : Members α) : Members α :=
  if (get? members name).isSome then members else insert name value members

end Json.Members

namespace Document

open Json (Value Members)

/-- The names of the relationships to one target that are unset. -/
def unsetNames (record : Record) : List String :=
  (record.kind.relationships.filter fun r =>
    r.cardinality = .toOne ∧ record.isUnset r).map Relationship.name

def insertNulls (names : List String) (relationships : Members Value) : Members Value :=
  names.foldl (fun members name => Members.insertNew name (linkageValue .null) members)
    relationships

/-- Puts null under each of these relationships that a resource does not have. -/
def clearIn (names : List String) (resource : Members Value) : Members Value :=
  let resource := Members.insertNew "relationships" (.object []) resource
  match Members.get? resource "relationships" with
  | some (.object relationships) =>
    Members.insert "relationships" (.object (insertNulls names relationships)) resource
  | _ => resource

/-- Puts null under each of these relationships that the resource of a document does not have. -/
def clear (names : List String) (document : Value) : Value :=
  if names.isEmpty then document
  else
    match document with
    | .object members =>
      match Members.get? members "data" with
      | some (.object resource) =>
        .object (Members.insert "data" (.object (clearIn names resource)) members)
      | _ => document
    | _ => document

/-- The document that an update of a record sends. -/
def replacement (record : Record) : Value :=
  clear (unsetNames record) (ofRecord .full record)

end Document

end ResearchRecords
