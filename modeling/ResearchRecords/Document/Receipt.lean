import ResearchRecords.Document.Fault
import ResearchRecords.Json.Layout

/-!
What a response says beside its records: the id that a new record was given, and how many records
match a selection on all pages together.
-/
namespace ResearchRecords

namespace Document

open Json (Node Field Layout)

/-- A layout with one field that may be missing or null. -/
def optionalField (record field : String) (read : Nat → Node → Except Json.Fault α) :
    Layout (Option α) where
  name := record
  fields := [⟨field, .never, fun room node _ => Node.optional (read room) node⟩]
  blank := none

def idLayout : Layout (Option String) := optionalField "IdResource" "id" fun _ => Node.string

def idDocumentLayout : Layout (Option (Option String)) :=
  optionalField "IdDocument" "data" idLayout.read

def pageLayout : Layout (Option Int) :=
  optionalField "PageMeta" "totalRecords" fun _ => Node.signed64

def metaLayout : Layout (Option (Option Int)) := optionalField "Meta" "page" pageLayout.read

def metaDocumentLayout : Layout (Option (Option (Option Int))) :=
  optionalField "MetaDocument" "meta" metaLayout.read

/-- The id that the repository has assigned; it is never empty. -/
def assignedId (body : Bytes) : Except Fault String := do
  let id ← ofJson (Json.readWith (idDocumentLayout.read Node.maxDepth) body)
  match id.join with
  | none => throw .noAssignedId
  | some id => if id.isEmpty then throw .noAssignedId else return id

def unknownTotal : Int := -1

def total (body : Bytes) : Except Fault Int := do
  let total ← ofJson (Json.readWith (metaDocumentLayout.read Node.maxDepth) body)
  return total.join.join.getD unknownTotal

end Document

end ResearchRecords
