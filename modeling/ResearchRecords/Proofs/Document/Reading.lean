import ResearchRecords.Proofs.Document.Settlement

/-!
The record of a response, told from the value of its text. Every target that the linkage of the
primary resource names is accounted for once: by the record of the value included for it, or else
by a stub.
-/
namespace ResearchRecords.Document

open Json (Value Members)
open Results

namespace Content

/-- The targets that the primary resource names for a relationship. -/
def named (document : Value) (r : Relationship) : List Target :=
  targets (linkage (primary document) r.name)

def isIncluded (document : Value) (target : Target) : Bool := (included? document target).isSome

def known (document : Value) (r : Relationship) : List Target :=
  (named document r).filter (isIncluded document)

def unknown (document : Value) (r : Relationship) : List Target :=
  (named document r).filter fun target => !isIncluded document target

theorem unknown_of_known_eq_nil {document : Value} {r : Relationship}
    (h : known document r = []) : unknown document r = named document r := by
  rw [unknown, List.filter_eq_self]
  intro target htarget
  have := List.filter_eq_nil_iff.mp h target htarget
  simpa using this

/-- The record of a target has its id, and the attributes of the value included for it. -/
def Builds (document : Value) (r : Relationship) (target : Target) (record : Record) : Prop :=
  ∃ resource attributes targets, included? document target = some resource ∧
    Row.read (Content.attributes resource) r.target.schema = .ok attributes ∧
    record = ⟨r.target, some target.2, attributes, targets⟩

def stub (r : Relationship) (target : Target) : Record := .stub r.target target.2

theorem ids_of_builds {document : Value} {r : Relationship} {targets : List Target}
    {records : List Record} (h : List.Forall₂ (Builds document r) targets records) :
    records.map Record.id = targets.map fun t => some t.2 := by
  induction h with
  | nil => rfl
  | cons hrecord _ ih =>
    obtain ⟨_, _, _, _, _, rfl⟩ := hrecord
    rw [List.map_cons, List.map_cons, ih]

theorem builds_of_hydrates {document : Document} {value : Value} (h : Mirrors document value)
    {r : Relationship} {target : Target} {record : Record}
    (hrecord : Hydrates document r target record) : Builds value r target record := by
  have hid := id_of_hydrates hrecord
  obtain ⟨resource, hresource, hhydrate⟩ := hrecord
  obtain ⟨attributes, targets, rfl, hattributes, _⟩ := (hydrate_eq_ok_iff ..).mp hhydrate
  have hrel := h.included?_rel target
  rw [hresource] at hrel
  cases hvalue : included? value target with
  | none =>
    rw [hvalue] at hrel
    cases hrel
  | some v =>
    rw [hvalue] at hrel
    cases hrel with
    | some hread =>
      rw [(Resource.shows_of_ofValue hread).attributes_eq] at hattributes
      exact ⟨v, attributes, targets, hvalue, hattributes, by rw [← hid]⟩

end Content

theorem Mirrors.targets_linkage {document : Document} {value : Value} (h : Mirrors document value)
    {resource : Resource} (hprimary : document.primary = .one resource) (r : Relationship) :
    (resource.linkage r.name).targets = Content.named value r :=
  (h.shows_primary hprimary).targets_linkage r.name

theorem Mirrors.isIncluded_eq {document : Document} {value : Value} (h : Mirrors document value) :
    isIncluded document = Content.isIncluded value :=
  funext h.isSome_included?

/-- What is known of the record that a response gives. -/
structure Content.Shows (value : Value) (record : Record) : Prop where
  id : ∃ id, id ≠ "" ∧ record.id = some id
  kinds : ∀ r, r.source = record.kind → ∀ target ∈ named value r, target.1 = r.target.name
  declared : ∀ r, r.source = record.kind →
    ∃ records, List.Forall₂ (Builds value r) (known value r) records ∧
      record.targets r = r.limit (records ++ (unknown value r).map (stub r))
  foreign : ∀ r, r.source ≠ record.kind → record.targets r = []

theorem shows_of_readOne {kind : Kind} {body : Bytes} {record : Record}
    (h : readOne kind body = .ok (some record)) :
    ∃ value, Json.parse body = .ok value ∧ record.kind = kind ∧ Content.Shows value record := by
  obtain ⟨document, resource, hreadable⟩ := readable_of_readOne h
  obtain ⟨value, hvalue, hmirrors⟩ := mirrors_of_parse hreadable.parsed
  obtain ⟨attributes, targets, hread, _, hsettles, hforeign⟩ := readOne_of_readable hreadable
  rw [h] at hread
  obtain rfl := Option.some.inj (Except.ok.inj hread)
  refine ⟨value, hvalue, rfl, hreadable.exists_id, ?_, ?_, hforeign⟩
  · intro r hr
    obtain ⟨records, ⟨hkinds, _⟩, _⟩ := hsettles r hr
    rwa [hmirrors.targets_linkage hreadable.primary] at hkinds
  · intro r hr
    obtain ⟨records, ⟨_, hrecords⟩, heq⟩ := hsettles r hr
    rw [stubsOf, List.map_map] at heq
    rw [hmirrors.targets_linkage hreadable.primary, hmirrors.isIncluded_eq] at hrecords heq
    exact ⟨records, hrecords.imp fun _ _ => Content.builds_of_hydrates hmirrors, heq⟩

/-- The ids of the targets are those that the document names, the included ones first. -/
theorem Content.Shows.targetIds_eq {value : Value} {record : Record}
    (h : Content.Shows value record) {r : Relationship} (hr : r.source = record.kind) :
    record.targetIds r = (r.limit (known value r ++ unknown value r)).map fun t => some t.2 := by
  obtain ⟨records, hrecords, heq⟩ := h.declared r hr
  rw [Record.targetIds, heq, Relationship.map_limit, Relationship.map_limit, List.map_append,
    List.map_append, ids_of_builds hrecords, List.map_map]
  rfl

end ResearchRecords.Document
