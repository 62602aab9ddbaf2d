import ResearchRecords.Document.Scan

/-!
Outstanding targets: those that a primary resource names and the document does not include. They are
listed by the id of the resource, one entry for each relationship that has any.
-/
namespace ResearchRecords

namespace Document

/-- The outstanding targets of one relationship; all of them are of one kind. -/
structure Outstanding where
  name : String
  kind : String
  ids : List String
  toMany : Bool
  deriving DecidableEq, Repr

namespace Outstanding

/-- The first two types that differ, if the targets are of several. -/
def mixed? : List Target → Option (String × String)
  | [] => none
  | (first, _) :: rest => (rest.find? fun t => t.1 ≠ first).map fun t => (first, t.1)

/-- The entry for some outstanding targets, if there are any. -/
def ofTargets (name : String) (toMany : Bool) (targets : List Target) :
    Except Fault (Option Outstanding) :=
  match mixed? targets, targets with
  | some (first, second), _ => .error (.mixedTargets name first second)
  | none, [] => .ok none
  | none, (kind, id) :: rest => .ok (some ⟨name, kind, id :: rest.map Prod.snd, toMany⟩)

def isMany : Linkage → Bool
  | .many _ => true
  | _ => false

def ofLinkage (included : List Target) (name : String) (linkage : Linkage) :
    Except Fault (Option Outstanding) :=
  ofTargets name (isMany linkage) (linkage.targets.filter fun t => !included.contains t)

end Outstanding

def outstandingOf (included : List Target) (resource : ScannedResource) :
    Except Fault (List Outstanding) := do
  let entries ← resource.relationships.mapM fun (name, linkage) =>
    Outstanding.ofLinkage included name linkage
  return entries.reduceOption

/-- Adds entries under an id, after those it already has. -/
def addEntries (found : Json.Members (List Outstanding)) (id : String)
    (entries : List Outstanding) : Json.Members (List Outstanding) :=
  if entries.isEmpty then found else found.insert id ((found.get? id).getD [] ++ entries)

/-- Resources without an id have no place in the list. -/
def addResource (included : List Target) (found : Json.Members (List Outstanding))
    (resource : ScannedResource) : Except Fault (Json.Members (List Outstanding)) := do
  match resource.id with
  | none => return found
  | some id => return addEntries found id (← outstandingOf included resource)

def outstandingOfScan (scan : Scan) : Except Fault (Json.Members (List Outstanding)) :=
  scan.primary.foldlM (addResource (scan.included.filterMap Identifier.target?)) []

def outstanding (body : Bytes) : Except Fault (Json.Members (List Outstanding)) := do
  outstandingOfScan (← ofJson (scan body))

end Document

end ResearchRecords
