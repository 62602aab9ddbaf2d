import ResearchRecords.Document.Decode
import ResearchRecords.Document.Outstanding

/-!
Stubs for outstanding targets. Merging fills a relationship to one target if it is unset, and
appends to a list the targets it does not have yet. Names that the kind does not declare are
passed over, and an entry of another kind than declared ends the merge there. Together with
decoding this reads a whole response.
-/
namespace ResearchRecords

namespace Document

/-- The stubs that one entry adds to a record. -/
def missingStubs (record : Record) (r : Relationship) (ids : List String) : List Record :=
  match r.cardinality with
  | .toOne => if record.isUnset r then (ids.take 1).map (.stub r.target) else []
  | .toMany =>
    let present := record.targetIds r
    (ids.filter fun id => !present.contains (some id)).map (.stub r.target)

/-- Merges one entry. -/
def mergeEntry (record : Record) (entry : Outstanding) : Except Fault Record :=
  match record.kind.relationship? entry.name with
  | none => .ok record
  | some r =>
    if entry.kind ≠ r.target.name then .error (.targetKind r.name r.target entry.kind)
    else linkTargets record r (missingStubs record r entry.ids)

/-- Merges entries in order. The record is given back as the entries before a failing one leave it.
-/
def merge (record : Record) : List Outstanding → Record × Option Fault
  | [] => (record, none)
  | entry :: rest =>
    match mergeEntry record entry with
    | .ok record => merge record rest
    | .error fault => (record, some fault)

/-- Merges the entries under the id of the record. -/
def mergeOwn (found : Json.Members (List Outstanding)) (record : Record) :
    Record × Option Fault :=
  merge record ((record.id >>= found.get?).getD [])

/-- Merges record by record; those after a failing one are left alone. -/
def mergeAll (found : Json.Members (List Outstanding)) :
    List Record → List Record × Option Fault
  | [] => ([], none)
  | record :: rest =>
    match mergeOwn found record with
    | (record, some fault) => (record :: rest, some fault)
    | (record, none) =>
      let (merged, fault?) := mergeAll found rest
      (record :: merged, fault?)

def settled : α × Option Fault → Except Fault α
  | (a, none) => .ok a
  | (_, some fault) => .error fault

/-- The one record of a response, with every target included or a stub. -/
def readOne (kind : Kind) (body : Bytes) : Except Fault (Option Record) := do
  match ← decodeOne kind body with
  | none => return none
  | some record => return some (← settled (mergeOwn (← outstanding body) record))

/-- The records of a response, with every target included or a stub. -/
def readMany (kind : Kind) (body : Bytes) : Except Fault (List Record) := do
  let records ← decodeMany kind body
  settled (mergeAll (← outstanding body) records)

end Document

end ResearchRecords
