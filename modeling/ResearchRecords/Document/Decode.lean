import ResearchRecords.Document.Resource

/-!
Records from documents. A record is built from its resource; each target that is included is built
likewise from the resource included for it, and other targets stay unset. That ends for any
document, since every target has a kind of lower rank.
-/
namespace ResearchRecords

namespace Document

/-- Links targets to a record, or tells which of them has the wrong kind. -/
def linkTargets (record : Record) (r : Relationship) (targets : List Record) :
    Except Fault Record :=
  match record.link r targets with
  | (record, none) => .ok record
  | (_, some mismatch) => .error (.targetKind r.name mismatch.expected mismatch.found.name)

def readRecord (kind : Kind) (resource : Resource) : Except Fault Record :=
  match Row.read resource.attributes kind.schema with
  | .ok attributes => .ok ⟨kind, resource.id, attributes, fun _ => []⟩
  | .error fault => .error (.attributes kind fault)

/-- Checks that a target has the kind that the relationship declares. -/
def requireKind (r : Relationship) (target : Target) : Except Fault Unit :=
  if target.1 = r.target.name then .ok () else .error (.targetKind r.name r.target target.1)

/-- The record of a resource, with the targets that are included. -/
def hydrate (document : Document) (kind : Kind) (resource : Resource) : Except Fault Record := do
  let record ← readRecord kind resource
  kind.relationships.attach.foldlM (fun record r => do
    let found ← (resource.linkage r.1.name).targets.mapM fun target => do
      requireKind r.1 target
      match document.included? target with
      | none => return none
      | some resource => return some (← hydrate document r.1.target resource)
    linkTargets record r.1 found.reduceOption) record
termination_by kind.rank
decreasing_by exact Relationship.rank_target_lt_of_mem r.2

/-- The record of a primary resource, which has to be of the kind asked for and to have an id. -/
def primaryRecord (document : Document) (kind : Kind) (resource : Resource) :
    Except Fault Record :=
  if resource.type ≠ kind.name then .error (.otherKind kind resource.type)
  else if resource.id.getD "" = "" then .error (.noId kind)
  else hydrate document kind resource

/-- The one record of a document, if it has any. -/
def decodeOne (kind : Kind) (body : Bytes) : Except Fault (Option Record) := do
  let document ← parse body
  match document.primary with
  | .empty => return none
  | .one resource => return some (← primaryRecord document kind resource)
  | .many _ => throw (.severalResources kind)

/-- The records of a document in its order. -/
def decodeMany (kind : Kind) (body : Bytes) : Except Fault (List Record) := do
  let document ← parse body
  match document.primary with
  | .empty => return []
  | .one resource => return [← primaryRecord document kind resource]
  | .many resources => resources.mapM (primaryRecord document kind)

end Document

end ResearchRecords
