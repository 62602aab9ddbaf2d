import ResearchRecords.Proofs.Document.Reading

/-!
The records within the record of a response. A target that is included is built from its own
resource, so it has targets in turn. Stubs are for the record of the response alone: of what the
resource of a record within it names, only the included targets are left.
-/
namespace ResearchRecords

namespace Document

open Json (Value)
open Results

namespace Content

/-- The targets that a resource names for a relationship. -/
def namedBy (resource : Value) (r : Relationship) : List Target := targets (linkage resource r.name)

def knownBy (document resource : Value) (r : Relationship) : List Target :=
  (namedBy resource r).filter (isIncluded document)

def unknownBy (document resource : Value) (r : Relationship) : List Target :=
  (namedBy resource r).filter fun target => !isIncluded document target

/-- The targets that are left to a record that so many relationships lead to. -/
def kept (document resource : Value) (r : Relationship) : Nat → List Target
  | 0 => knownBy document resource r ++ unknownBy document resource r
  | _ + 1 => knownBy document resource r

/-- A record within the whole record of a response, with the value it is built from, and how many
relationships lead to it. -/
inductive Within (document : Value) (whole : Record) : Nat → Record → Value → Prop
  | whole : Within document whole 0 whole (primary document)
  | target {depth : Nat} {record : Record} {resource : Value} {r : Relationship}
      {target : Target} {child : Record} {value : Value}
      (within : Within document whole depth record resource)
      (named : target ∈ namedBy resource r) (included : included? document target = some value)
      (held : child ∈ record.targets r) (id : child.id = some target.2) :
      Within document whole (depth + 1) child value

/-- A record has what its resource names: every target of a list, and otherwise some target if any
is named. -/
def Complete (record : Record) (resource : Value) (r : Relationship) : Prop :=
  match r.cardinality with
  | .toOne => namedBy resource r ≠ [] → record.targets r ≠ []
  | .toMany => ∀ target ∈ namedBy resource r, some target.2 ∈ record.targetIds r

/-- The document includes what a resource names, as far as the relationship can hold it. -/
def Covered (document resource : Value) (r : Relationship) : Prop :=
  match r.cardinality with
  | .toOne => namedBy resource r ≠ [] → knownBy document resource r ≠ []
  | .toMany => ∀ target ∈ namedBy resource r, isIncluded document target = true

end Content

/-- The stubs of a record that so many relationships lead to. -/
def stubsAt (document : Document) (resource : Resource) (r : Relationship) : Nat → List Record
  | 0 => stubsOf document resource r
  | _ + 1 => []

/-- A record that is built from a resource, as it is at this depth. -/
structure Stands (document : Document) (depth : Nat) (resource : Resource) (record : Record) :
    Prop where
  id : ∃ id, id ≠ "" ∧ record.id = some id
  attributes : Row.read resource.attributes record.kind.schema = .ok record.attributes
  declared : ∀ r, r.source = record.kind → ∃ records, HydratesAll document resource r records ∧
    record.targets r = r.limit (records ++ stubsAt document resource r depth)
  foreign : ∀ r, r.source ≠ record.kind → record.targets r = []

theorem stands_of_readable {kind : Kind} {body : Bytes} {document : Document} {resource : Resource}
    (hreadable : Readable kind body document resource) {record : Record}
    (h : readOne kind body = .ok (some record)) : Stands document 0 resource record := by
  obtain ⟨attributes, targets, hread, hattributes, hsettles, hforeign⟩ :=
    readOne_of_readable hreadable
  rw [h] at hread
  obtain rfl := Option.some.inj (Except.ok.inj hread)
  exact ⟨hreadable.exists_id, hattributes, hsettles, hforeign⟩

theorem stands_of_hydrates {document : Document} {r : Relationship} {target : Target}
    {record : Record} (h : Hydrates document r target record) (hne : target.2 ≠ "") (depth : Nat) :
    ∃ resource, document.included? target = some resource ∧
      Stands document (depth + 1) resource record := by
  have hid := id_of_hydrates h
  obtain ⟨resource, hresource, hhydrate⟩ := h
  obtain ⟨attributes, targets, rfl, hattributes, hdeclared, hforeign⟩ :=
    (hydrate_eq_ok_iff ..).mp hhydrate
  refine ⟨resource, hresource, ⟨target.2, hne, hid⟩, hattributes, ?_, hforeign⟩
  intro s hs
  obtain ⟨records, hall, heq⟩ := hdeclared s hs
  exact ⟨records, hall, by rw [stubsAt, List.append_nil]; exact heq⟩

namespace Stands

variable {document : Document} {depth : Nat} {resource : Resource} {record : Record}

theorem source_eq (h : Stands document depth resource record) {r : Relationship} {child : Record}
    (hchild : child ∈ record.targets r) : r.source = record.kind := by
  by_contra hne
  rw [h.foreign r hne] at hchild
  exact List.not_mem_nil hchild

/-- Every target of a record is built from a resource included for it, or it is a stub. -/
theorem target_cases (h : Stands document depth resource record) {r : Relationship}
    {child : Record} (hchild : child ∈ record.targets r) :
    (∃ target ∈ (resource.linkage r.name).targets, Hydrates document r target child) ∨
      depth = 0 ∧ ∃ target ∈ (resource.linkage r.name).targets,
        isIncluded document target = false ∧ child = .stub r.target target.2 := by
  obtain ⟨records, hall, heq⟩ := h.declared r (h.source_eq hchild)
  rw [heq] at hchild
  rcases List.mem_append.mp (Relationship.mem_of_mem_limit hchild) with hbuilt | hstub
  · obtain ⟨target, htarget, hhydrates⟩ := exists_mem_of_forall₂ hall.2.flip hbuilt
    exact .inl ⟨target, (List.mem_filter.mp htarget).1, hhydrates⟩
  · cases depth with
    | succ depth => exact absurd hstub List.not_mem_nil
    | zero =>
      obtain ⟨id, hid, rfl⟩ := List.mem_map.mp hstub
      obtain ⟨target, htarget, rfl⟩ := List.mem_map.mp hid
      obtain ⟨hmem, hmissing⟩ := List.mem_filter.mp htarget
      exact .inr ⟨rfl, target, hmem, by simpa using hmissing, rfl⟩

/-- A target with the id of an included one is built from its resource. -/
theorem hydrates_of_id (h : Stands document depth resource record) {r : Relationship}
    {target : Target} (hnamed : target ∈ (resource.linkage r.name).targets)
    (hincluded : isIncluded document target = true) {child : Record}
    (hchild : child ∈ record.targets r) (hid : child.id = some target.2) :
    Hydrates document r target child := by
  obtain ⟨_, ⟨hkinds, _⟩, _⟩ := h.declared r (h.source_eq hchild)
  rcases h.target_cases hchild with ⟨other, hother, hhydrates⟩ | ⟨_, other, hother, hmissing, rfl⟩
  · have hsecond : other.2 = target.2 := Option.some.inj ((id_of_hydrates hhydrates).symm.trans hid)
    exact target_eq_of_kinds hkinds hother hnamed hsecond ▸ hhydrates
  · have hsecond : other.2 = target.2 := Option.some.inj hid
    rw [target_eq_of_kinds hkinds hother hnamed hsecond, hincluded] at hmissing
    cases hmissing

end Stands

variable {document : Document} {value : Value}

theorem Mirrors.exists_included (h : Mirrors document value) {target : Target} {v : Value}
    (hv : Content.included? value target = some v) :
    ∃ resource, document.included? target = some resource ∧ Resource.ofValue v = .ok resource := by
  have hrel := h.included?_rel target
  rw [hv] at hrel
  cases hresource : document.included? target with
  | none =>
    rw [hresource] at hrel
    cases hrel
  | some resource =>
    rw [hresource] at hrel
    cases hrel with
    | some hread => exact ⟨resource, rfl, hread⟩

theorem targets_linkage_eq {resource : Resource} {v : Value}
    (h : Resource.ofValue v = .ok resource) (r : Relationship) :
    (resource.linkage r.name).targets = Content.namedBy v r :=
  (Resource.shows_of_ofValue h).targets_linkage r.name

/-- Every record within the whole one stands at its depth. -/
theorem stands_of_within (hmirrors : Mirrors document value) {first : Resource} {whole : Record}
    (hprimary : document.primary = .one first) (hwhole : Stands document 0 first whole)
    {depth : Nat} {record : Record} {v : Value}
    (h : Content.Within value whole depth record v) :
    ∃ resource, Resource.ofValue v = .ok resource ∧ Stands document depth resource record := by
  -- Along the way to a record, its resource is what tells the targets of the next one.
  induction h with
  | whole =>
    have hread := hmirrors.primary
    rw [hprimary] at hread
    exact ⟨first, Primary.ofValue_eq_one hread, hwhole⟩
  | @target depth record v r target child w _ hnamed hincluded hchild hid ih =>
    obtain ⟨resource, hread, hstands⟩ := ih
    obtain ⟨found, hfound, hvalue⟩ := hmirrors.exists_included hincluded
    have hisIncluded : isIncluded document target = true := by
      rw [isIncluded, hfound]
      rfl
    have hne := (Content.ne_empty_of_mem_targets hnamed).2
    rw [← targets_linkage_eq hread] at hnamed
    have hhydrates := hstands.hydrates_of_id hnamed hisIncluded hchild hid
    obtain ⟨again, hagain, hbuilt⟩ := stands_of_hydrates hhydrates hne depth
    obtain rfl := Option.some.inj (hfound.symm.trans hagain)
    exact ⟨found, hvalue, hbuilt⟩

namespace Content

/-- What is known of a record within the whole one. -/
structure Nests (document : Value) (whole : Record) (depth : Nat) (record : Record)
    (resource : Value) : Prop where
  id : ∃ id, id ≠ "" ∧ record.id = some id
  attributes : Row.read (Content.attributes resource) record.kind.schema = .ok record.attributes
  kinds : ∀ r, r.source = record.kind → ∀ target ∈ namedBy resource r, target.1 = r.target.name
  targetIds : ∀ r, r.source = record.kind →
    record.targetIds r = (r.limit (kept document resource r depth)).map fun t => some t.2
  targets : ∀ r, ∀ child ∈ record.targets r,
    (∃ v, Within document whole (depth + 1) child v) ∨
      depth = 0 ∧ ∃ target ∈ unknownBy document resource r, child = stub r target
  foreign : ∀ r, r.source ≠ record.kind → record.targets r = []

end Content

theorem ids_of_hydratesAll {resource : Resource} {r : Relationship} {records : List Record}
    (h : HydratesAll document resource r records) : records.map Record.id =
      ((resource.linkage r.name).targets.filter (isIncluded document)).map fun t => some t.2 := by
  obtain ⟨_, hall⟩ := h
  generalize (resource.linkage r.name).targets.filter (isIncluded document) = targets at hall ⊢
  induction hall with
  | nil => rfl
  | cons hrecord _ ih => rw [List.map_cons, List.map_cons, ih, id_of_hydrates hrecord]

theorem ids_stubsAt (document : Document) (resource : Resource) (r : Relationship) (depth : Nat) :
    (stubsAt document resource r depth).map Record.id = match depth with
      | 0 => ((resource.linkage r.name).targets.filter fun t => !isIncluded document t).map
          fun t => some t.2
      | _ + 1 => [] := by
  cases depth with
  | zero =>
    rw [stubsAt, stubsOf, List.map_map, List.map_map]
    rfl
  | succ depth => rfl

theorem nests_of_within (hmirrors : Mirrors document value) {first : Resource} {whole : Record}
    (hprimary : document.primary = .one first) (hwhole : Stands document 0 first whole)
    {depth : Nat} {record : Record} {v : Value}
    (h : Content.Within value whole depth record v) :
    Content.Nests value whole depth record v := by
  obtain ⟨resource, hread, hstands⟩ := stands_of_within hmirrors hprimary hwhole h
  have hnamed := targets_linkage_eq hread
  have hattributes := hstands.attributes
  rw [(Resource.shows_of_ofValue hread).attributes_eq] at hattributes
  refine ⟨hstands.id, hattributes, ?_, ?_, ?_, hstands.foreign⟩
  · intro r hr
    obtain ⟨_, ⟨hkinds, _⟩, _⟩ := hstands.declared r hr
    rwa [hnamed] at hkinds
  · intro r hr
    obtain ⟨records, hall, heq⟩ := hstands.declared r hr
    have hids : (records ++ stubsAt document resource r depth).map Record.id =
        (Content.kept value v r depth).map fun t => some t.2 := by
      rw [List.map_append, ids_of_hydratesAll hall, ids_stubsAt, hnamed, hmirrors.isIncluded_eq]
      cases depth with
      | zero => exact List.map_append.symm
      | succ depth => exact List.append_nil _
    rw [Record.targetIds, heq, Relationship.map_limit, hids, ← Relationship.map_limit]
  · intro r child hchild
    rcases hstands.target_cases hchild with ⟨target, htarget, hhydrates⟩ |
      ⟨hdepth, target, htarget, hmissing, rfl⟩
    · have hincluded : (Content.included? value target).isSome := by
        obtain ⟨found, hfound, _⟩ := hhydrates
        rw [← hmirrors.isSome_included?, hfound]
        rfl
      obtain ⟨w, hw⟩ := Option.isSome_iff_exists.mp hincluded
      rw [hnamed] at htarget
      exact .inl ⟨w, h.target htarget hw hchild (id_of_hydrates hhydrates)⟩
    · rw [hnamed] at htarget
      rw [hmirrors.isIncluded_eq] at hmissing
      exact .inr ⟨hdepth, target, List.mem_filter.mpr ⟨htarget, by simp [hmissing]⟩, rfl⟩

/-- A response that gives a record tells of every record within it what it is built from. -/
theorem nests_of_readOne {kind : Kind} {body : Bytes} {whole : Record}
    (h : readOne kind body = .ok (some whole)) :
    ∃ value, Json.parse body = .ok value ∧ whole.kind = kind ∧
      ∀ depth record v, Content.Within value whole depth record v →
        Content.Nests value whole depth record v := by
  obtain ⟨document, first, hreadable⟩ := readable_of_readOne h
  obtain ⟨value, hvalue, hmirrors⟩ := mirrors_of_parse hreadable.parsed
  have hwhole := stands_of_readable hreadable h
  obtain ⟨_, _, hkind, _⟩ := shows_of_readOne h
  exact ⟨value, hvalue, hkind, fun depth record v hwithin =>
    nests_of_within hmirrors hreadable.primary hwhole hwithin⟩

namespace Content

variable {document resource : Value} {r : Relationship} {depth : Nat}

/-- The whole record is left all targets that its resource names. -/
theorem kept_zero_perm (document resource : Value) (r : Relationship) :
    (kept document resource r 0).Perm (namedBy resource r) :=
  List.filter_append_perm (isIncluded document) (namedBy resource r)

theorem mem_kept {target : Target} : target ∈ kept document resource r depth ↔
    target ∈ namedBy resource r ∧ (depth = 0 ∨ isIncluded document target = true) := by
  cases depth with
  | zero => simp [(kept_zero_perm document resource r).mem_iff]
  | succ depth => simp [kept, knownBy]

theorem kept_eq_nil_iff : kept document resource r depth = [] ↔
    namedBy resource r = [] ∨ depth ≠ 0 ∧ knownBy document resource r = [] := by
  cases depth with
  | zero =>
    have hlength := (kept_zero_perm document resource r).length_eq
    rw [← List.length_eq_zero_iff, hlength, List.length_eq_zero_iff]
    simp
  | succ depth =>
    constructor
    · intro hnil
      exact .inr ⟨by omega, hnil⟩
    · rintro (hnil | ⟨_, hnil⟩)
      · rw [kept, knownBy, hnil, List.filter_nil]
      · exact hnil

namespace Nests

variable {whole record : Record} (h : Nests document whole depth record resource)
include h

theorem targets_eq_nil_iff (hr : r.source = record.kind) :
    record.targets r = [] ↔ kept document resource r depth = [] := by
  have hids := h.targetIds r hr
  rw [← List.map_eq_nil_iff (f := Record.id), ← Record.targetIds, hids, List.map_eq_nil_iff,
    Relationship.limit_eq_nil_iff]

/-- No other target that a resource names has the id of one that is left. -/
theorem some_mem_targetIds_iff (hr : r.source = record.kind) (hmany : r.cardinality = .toMany)
    {target : Target} (htarget : target ∈ namedBy resource r) :
    some target.2 ∈ record.targetIds r ↔ depth = 0 ∨ isIncluded document target = true := by
  rw [h.targetIds r hr, Relationship.limit_of_toMany hmany, List.mem_map]
  constructor
  · rintro ⟨other, hother, hid⟩
    obtain ⟨hnamed, hleft⟩ := mem_kept.mp hother
    exact target_eq_of_kinds (h.kinds r hr) hnamed htarget (Option.some.inj hid) ▸ hleft
  · intro hleft
    exact ⟨target, mem_kept.mpr ⟨htarget, hleft⟩, rfl⟩

/-- The whole record is complete, and a record within it as far as the document includes what its
resource names. -/
theorem complete_iff (hr : r.source = record.kind) :
    Complete record resource r ↔ depth = 0 ∨ Covered document resource r := by
  unfold Complete Covered
  cases hcardinality : r.cardinality with
  | toOne =>
    have hnil := h.targets_eq_nil_iff hr
    rw [kept_eq_nil_iff] at hnil
    simp only [ne_eq, hnil]
    tauto
  | toMany =>
    constructor
    · intro hall
      by_cases hzero : depth = 0
      · exact .inl hzero
      · exact .inr fun target htarget =>
          ((h.some_mem_targetIds_iff hr hcardinality htarget).mp (hall target htarget)).resolve_left
            hzero
    · intro hleft target htarget
      exact (h.some_mem_targetIds_iff hr hcardinality htarget).mpr
        (hleft.imp_right fun hall => hall target htarget)

end Nests

end Content

end Document

end ResearchRecords
