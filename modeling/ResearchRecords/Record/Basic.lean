import ResearchRecords.Record.Attribute
import ResearchRecords.Record.Relationship

/-!
Records. A record has an id once the repository has given it one, its attributes, and the targets
of its relationships, which are records themselves. A stub is a record with nothing but its id; it
stands for a target of which only the id is known. Linking gives a relationship new targets: it
replaces a single one and appends to a list.
-/
namespace ResearchRecords

structure Record where
  kind : Kind
  id : Option String
  attributes : Attributes kind
  targets : Relationship → List Record

/-- A record of one kind was offered where another was required. -/
structure KindMismatch where
  expected : Kind
  found : Kind
  deriving DecidableEq, Repr

namespace Record

def blank (kind : Kind) : Record := ⟨kind, none, Row.blank kind.schema, fun _ => []⟩

def withId (record : Record) (id : Option String) : Record := { record with id }

def stub (kind : Kind) (id : String) : Record := (blank kind).withId (some id)

def targetIds (record : Record) (r : Relationship) : List (Option String) :=
  (record.targets r).map Record.id

def isUnset (record : Record) (r : Relationship) : Bool := (record.targets r).isEmpty

def setTargets (record : Record) (r : Relationship) (targets : List Record) : Record :=
  { record with targets := fun s => if s = r then targets else record.targets s }

/-- The record, if it is of this kind. -/
def ofKind (kind : Kind) (record : Record) : Except KindMismatch Record :=
  if record.kind = kind then .ok record else .error ⟨kind, record.kind⟩

/-- Appends targets one by one, up to the first of another kind. -/
def append (record : Record) (r : Relationship) : List Record → Record × Option KindMismatch
  | [] => (record, none)
  | target :: rest =>
    match target.ofKind r.target with
    | .ok target => (record.setTargets r (record.targets r ++ [target])).append r rest
    | .error mismatch => (record, some mismatch)

/-- Sets the targets of a relationship; the record is given back also when it fails. -/
def link (record : Record) (r : Relationship) (targets : List Record) :
    Record × Option KindMismatch :=
  match r.cardinality, targets with
  | .toOne, [] => (record, none)
  | .toOne, target :: _ =>
    match target.ofKind r.target with
    | .ok target => (record.setTargets r [target], none)
    | .error mismatch => (record, some mismatch)
  | .toMany, targets => record.append r targets

mutual

/-- Whether two records agree in kind, id, attributes and all targets. -/
def same : Record → Record → Bool
  | ⟨kind, id, attributes, targets⟩, other =>
    if h : kind = other.kind then
      id = other.id ∧ h ▸ attributes = other.attributes ∧
        kind.relationships.all fun r => sameAll (targets r) (other.targets r)
    else false

def sameAll : List Record → List Record → Bool
  | [], [] => true
  | a :: rest, b :: others => same a b && sameAll rest others
  | _, _ => false

end

/-- Records whose targets keep the declarations of their relationships, at every depth. -/
inductive WellFormed : Record → Prop
  | intro (record : Record)
    (foreign : ∀ r, r.source ≠ record.kind → record.targets r = [])
    (single : ∀ r, r.cardinality = .toOne → (record.targets r).length ≤ 1)
    (kinds : ∀ r, ∀ target ∈ record.targets r, target.kind = r.target)
    (nested : ∀ r, ∀ target ∈ record.targets r, WellFormed target) : WellFormed record

end Record

end ResearchRecords
