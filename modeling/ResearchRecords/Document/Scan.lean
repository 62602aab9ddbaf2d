import ResearchRecords.Document.Resource
import ResearchRecords.Json.Layout

/-!
A scan of a response for its linkage alone: the ids and relationships of the primary resources, and
the identifiers of the included ones. All other members are passed over without being read.
-/
namespace ResearchRecords

namespace Document

open Json (Node Field Layout)

structure ScannedResource where
  id : Option String
  relationships : Json.Members Linkage
  deriving DecidableEq, Repr

structure Scan where
  primary : List ScannedResource
  included : List Identifier
  deriving DecidableEq, Repr

/-- A string that is not empty; any other value counts as missing. -/
def scanText (room : Nat) (node : Node) : Except Json.Fault (Option String) := do
  return nonEmpty (← node.value room)

def identifierLayout : Layout Identifier where
  name := "IdentifierScan"
  fields :=
    [⟨"type", .never, fun room node i => do return { i with type := ← scanText room node }⟩,
      ⟨"id", .never, fun room node i => do return { i with id := ← scanText room node }⟩]
  blank := ⟨none, none⟩

/-- An item of a list of identifiers. What is no object is passed over. -/
def scanIdentifier? (room : Nat) : Node → Except Json.Fault (Option Identifier)
  | .object members ending => do
    return some (← identifierLayout.readObject (← Node.enter room) members ending)
  | .list items ending => do
    let _ ← Node.enter room
    Node.skipItems items
    Json.refuse ending.fault?
    return none
  | node => do
    let _ ← node.value room
    return none

def scanLinkage (room : Nat) : Node → Except Json.Fault Linkage
  | .object members ending => do
    return .one (← identifierLayout.readObject (← Node.enter room) members ending)
  | .list items ending => do
    return .many (← Node.items room scanIdentifier? (.list items ending)).reduceOption
  | node => do
    let _ ← node.value room
    return .absent

def relationshipLayout : Layout Linkage where
  name := "RelationshipScan"
  fields := [⟨"data", .never, fun room node _ => scanLinkage room node⟩]
  blank := .absent

def scanRelationships (room : Nat) (node : Node) : Except Json.Fault (Json.Members Linkage) := do
  let members ← Node.optional (Node.members room relationshipLayout.read) node
  return Json.Members.ordered (members.getD [])

def resourceLayout : Layout ScannedResource where
  name := "ResourceScan"
  fields :=
    [⟨"id", .never, fun _ node r => do return { r with id := ← Node.optional Node.string node }⟩,
      ⟨"relationships", .never, fun room node r => do
        return { r with relationships := ← scanRelationships room node }⟩]
  blank := ⟨none, []⟩

def scanPrimary (room : Nat) : Node → Except Json.Fault (List ScannedResource)
  | .null => .ok []
  | .object members ending => do
    return [← resourceLayout.readObject (← Node.enter room) members ending]
  | .list items ending => Node.items room resourceLayout.read (.list items ending)
  | node =>
    .error (node.mistyped "a resource object, an array of resource objects, or null")

def scanIncluded (room : Nat) (node : Node) : Except Json.Fault (List Identifier) := do
  return (← Node.optional (Node.items room identifierLayout.read) node).getD []

def scanLayout : Layout Scan where
  name := "DocumentScan"
  fields :=
    [⟨"data", .never, fun room node s => do return { s with primary := ← scanPrimary room node }⟩,
      ⟨"included", .never, fun room node s => do
        return { s with included := ← scanIncluded room node }⟩]
  blank := ⟨[], []⟩

def scan (body : Bytes) : Except Json.Fault Scan :=
  Json.readWith (scanLayout.read Node.maxDepth) body

end Document

end ResearchRecords
