import ResearchRecords.Json.Fault
import ResearchRecords.Record.Kind

/-!
Why a response is not a document that can be used, and why records cannot be linked to the targets
it names.
-/
namespace ResearchRecords.Document

inductive Fault
  | json (fault : Json.Fault)
  | notObject
  | severalResources (kind : Kind)
  | otherKind (expected : Kind) (found : String)
  | noId (kind : Kind)
  | attributes (kind : Kind) (fault : Json.Fault)
  | mixedTargets (relationship : String) (first second : String)
  | noAssignedId
  | targetKind (relationship : String) (expected : Kind) (found : String)
  deriving DecidableEq, Repr

namespace Fault

/-- What is wrong with the document, where it is the document that is wrong. -/
def defect : Fault → String
  | json fault => fault.message
  | notObject => "top-level value is not an object"
  | severalResources kind => "expected a single " ++ kind.name ++ " resource, got an array"
  | otherKind expected found =>
    "expected resource of type '" ++ expected.name ++ "', got '" ++ found ++ "'"
  | noId kind => kind.name ++ " resource without an id"
  | attributes kind fault => "invalid " ++ kind.name ++ " attributes: " ++ fault.message
  | mixedTargets relationship first second =>
    "relationship '" ++ relationship ++ "' mixes target types '" ++ first ++ "' and '" ++
      second ++ "'"
  | noAssignedId => "response has no data.id"
  | targetKind _ _ _ => ""

def message : Fault → String
  | targetKind relationship expected found =>
    "Relationship '" ++ relationship ++ "' expects '" ++ expected.name ++ "' targets but got '" ++
      found ++ "'"
  | fault => "Malformed JSON:API response: " ++ fault.defect

end Fault

def ofJson (result : Except Json.Fault α) : Except Fault α := result.mapError .json

end ResearchRecords.Document
