import ResearchRecords.Document.Decode
import ResearchRecords.Proofs.Record.Linking
import ResearchRecords.Proofs.Results

/-!
What building a record from its resource gives. It succeeds exactly if the attributes can be read,
every target of a declared relationship has the declared kind, and every target that is included
can be built in turn. The targets of a relationship are then those included, in the order of the
linkage.
-/
namespace ResearchRecords.Document

open Results

theorem linkTargets_eq (record : Record) (r : Relationship) {targets : List Record}
    (h : ∀ target ∈ targets, target.kind = r.target) :
    linkTargets record r targets =
      .ok (record.setTargets r (r.joined (record.targets r) targets)) := by
  rw [linkTargets, Record.link_eq record r targets h]

theorem requireKind_eq_ok (r : Relationship) (target : Target) (u : Unit) :
    requireKind r target = .ok u ↔ target.1 = r.target.name := by
  unfold requireKind
  by_cases h : target.1 = r.target.name
  · simp [h]
  · simp [h]

theorem readRecord_eq_ok (kind : Kind) (resource : Resource) (record : Record) :
    readRecord kind resource = .ok record ↔
      ∃ attributes, Row.read resource.attributes kind.schema = .ok attributes ∧
        record = ⟨kind, resource.id, attributes, fun _ => []⟩ := by
  unfold readRecord
  cases Row.read resource.attributes kind.schema with
  | ok attributes => simp [eq_comm]
  | error fault => simp

/-- The record of a target, if it is included. -/
def hydrateTarget (document : Document) (r : Relationship) (target : Target) :
    Except Fault (Option Record) := do
  requireKind r target
  match document.included? target with
  | none => return none
  | some resource => return some (← hydrate document r.target resource)

/-- Sets a relationship to the included targets of its linkage. -/
def hydrateRelationship (document : Document) (resource : Resource) (record : Record)
    (r : Relationship) : Except Fault Record := do
  let found ← (resource.linkage r.name).targets.mapM (hydrateTarget document r)
  linkTargets record r found.reduceOption

theorem hydrate_eq (document : Document) (kind : Kind) (resource : Resource) :
    hydrate document kind resource = readRecord kind resource >>=
      kind.relationships.foldlM (hydrateRelationship document resource) := by
  rw [hydrate]
  congr 1
  funext record
  rw [List.foldlM_subtype (g := hydrateRelationship document resource) (by
    intro record r hr
    rfl), List.unattach_attach]

theorem linkTargets_kind {record linked : Record} {r : Relationship} {targets : List Record}
    (h : linkTargets record r targets = .ok linked) : linked.kind = record.kind := by
  have hkind := Record.link_kind record r targets
  unfold linkTargets at h
  split at h
  · next heq =>
    rw [heq] at hkind
    exact Except.ok.inj h ▸ hkind
  · simp at h

/-- A record has the kind it was asked for. -/
theorem hydrate_kind {document : Document} {kind : Kind} {resource : Resource} {record : Record}
    (h : hydrate document kind resource = .ok record) : record.kind = kind := by
  rw [hydrate_eq, bind_eq_ok] at h
  obtain ⟨start, hstart, hrest⟩ := h
  obtain ⟨_, _, rfl⟩ := (readRecord_eq_ok ..).mp hstart
  refine foldlM_invariant (fun record => record.kind = kind) ?_ hrest rfl
  intro before r after hstep hkind
  simp only [hydrateRelationship, bind_eq_ok] at hstep
  obtain ⟨found, _, hlink⟩ := hstep
  rw [linkTargets_kind hlink, hkind]

/-- The record built for a target that is included. -/
def Hydrates (document : Document) (r : Relationship) (target : Target) (record : Record) : Prop :=
  ∃ resource, document.included? target = some resource ∧
    hydrate document r.target resource = .ok record

def isIncluded (document : Document) (target : Target) : Bool :=
  (document.included? target).isSome

theorem hydrateTarget_eq_ok (document : Document) (r : Relationship) (target : Target)
    (found : Option Record) :
    hydrateTarget document r target = .ok found ↔ target.1 = r.target.name ∧
      match found with
      | none => isIncluded document target = false
      | some record => Hydrates document r target record := by
  unfold hydrateTarget isIncluded Hydrates
  cases document.included? target with
  | none => cases found <;> simp [requireKind_eq_ok]
  | some resource => cases found <;> simp [requireKind_eq_ok]

/-- Every target has the declared kind, and those included give the records in order. -/
theorem mapM_hydrateTarget_iff (document : Document) (r : Relationship) (targets : List Target)
    (records : List Record) :
    (∃ found, targets.mapM (hydrateTarget document r) = .ok found ∧
        found.reduceOption = records) ↔
      (∀ target ∈ targets, target.1 = r.target.name) ∧
        List.Forall₂ (Hydrates document r) (targets.filter (isIncluded document)) records := by
  induction targets generalizing records with
  | nil =>
    constructor
    · rintro ⟨found, hfound, rfl⟩
      obtain rfl := (pure_eq_ok ..).mp hfound
      exact ⟨by simp, .nil⟩
    · rintro ⟨_, hrecords⟩
      cases hrecords
      exact ⟨[], rfl, rfl⟩
  | cons target rest ih =>
    rw [List.forall_mem_cons]
    constructor
    · rintro ⟨found, hfound, rfl⟩
      rw [mapM_eq_ok_iff] at hfound
      cases hfound with
      | @cons _ first _ found hfirst hrest =>
        obtain ⟨hkind, hfirst⟩ := (hydrateTarget_eq_ok ..).mp hfirst
        obtain ⟨hkinds, hrecords⟩ := (ih _).mp ⟨found, (mapM_eq_ok_iff ..).mpr hrest, rfl⟩
        refine ⟨⟨hkind, hkinds⟩, ?_⟩
        cases first with
        | none =>
          rw [List.filter_cons_of_neg (by simpa using hfirst)]
          exact hrecords
        | some record =>
          have hincluded : isIncluded document target = true := by
            obtain ⟨resource, hresource, _⟩ := hfirst
            rw [isIncluded, hresource]
            rfl
          rw [List.filter_cons_of_pos hincluded]
          exact .cons hfirst hrecords
    · rintro ⟨⟨hkind, hkinds⟩, hrecords⟩
      by_cases hincluded : isIncluded document target = true
      · rw [List.filter_cons_of_pos hincluded] at hrecords
        cases hrecords with
        | @cons _ record _ records hrecord hrest =>
          obtain ⟨found, hfound, rfl⟩ := (ih _).mpr ⟨hkinds, hrest⟩
          refine ⟨some record :: found, ?_, rfl⟩
          rw [mapM_eq_ok_iff] at hfound ⊢
          exact .cons ((hydrateTarget_eq_ok ..).mpr ⟨hkind, hrecord⟩) hfound
      · rw [List.filter_cons_of_neg hincluded] at hrecords
        obtain ⟨found, hfound, rfl⟩ := (ih _).mpr ⟨hkinds, hrecords⟩
        refine ⟨none :: found, ?_, rfl⟩
        rw [mapM_eq_ok_iff] at hfound ⊢
        exact .cons ((hydrateTarget_eq_ok ..).mpr ⟨hkind, by simpa using hincluded⟩) hfound

theorem kind_of_hydrates {document : Document} {r : Relationship} {targets : List Target}
    {records : List Record} (h : List.Forall₂ (Hydrates document r) targets records) :
    ∀ record ∈ records, record.kind = r.target := by
  intro record hrecord
  obtain ⟨_, _, resource, _, hhydrate⟩ := exists_mem_of_forall₂ h.flip hrecord
  exact hydrate_kind hhydrate

/-- The targets of a linkage are of the declared kind, and those included give these records. -/
def HydratesAll (document : Document) (resource : Resource) (r : Relationship)
    (records : List Record) : Prop :=
  (∀ target ∈ (resource.linkage r.name).targets, target.1 = r.target.name) ∧
    List.Forall₂ (Hydrates document r)
      ((resource.linkage r.name).targets.filter (isIncluded document)) records

theorem hydrateRelationship_eq_ok (document : Document) (resource : Resource) (record : Record)
    (r : Relationship) (linked : Record) :
    hydrateRelationship document resource record r = .ok linked ↔
      ∃ records, HydratesAll document resource r records ∧
        linked = record.setTargets r (r.joined (record.targets r) records) := by
  simp only [hydrateRelationship, bind_eq_ok]
  constructor
  · rintro ⟨found, hfound, hlink⟩
    have hall : HydratesAll document resource r found.reduceOption :=
      (mapM_hydrateTarget_iff ..).mp ⟨found, hfound, rfl⟩
    rw [linkTargets_eq record r (kind_of_hydrates hall.2)] at hlink
    exact ⟨found.reduceOption, hall, (Except.ok.inj hlink).symm⟩
  · rintro ⟨records, hall, rfl⟩
    obtain ⟨found, hfound, rfl⟩ := (mapM_hydrateTarget_iff ..).mpr hall
    exact ⟨found, hfound, linkTargets_eq record r (kind_of_hydrates hall.2)⟩

theorem foldlM_hydrateRelationship (document : Document) (resource : Resource)
    {rs : List Relationship} (hnodup : rs.Nodup) (start final : Record) :
    rs.foldlM (hydrateRelationship document resource) start = .ok final ↔
      ∃ targets, final = { start with targets } ∧
        (∀ r ∈ rs, ∃ records, HydratesAll document resource r records ∧
          targets r = r.joined (start.targets r) records) ∧
        ∀ r ∉ rs, targets r = start.targets r := by
  induction rs generalizing start with
  | nil =>
    obtain ⟨kind, id, attributes, held⟩ := start
    simp only [List.foldlM_nil, pure_eq_ok]
    constructor
    · rintro rfl
      exact ⟨held, rfl, by simp, fun _ _ => rfl⟩
    · rintro ⟨targets, rfl, _, hsame⟩
      have : targets = held := funext fun r => hsame r List.not_mem_nil
      rw [this]
  | cons r rest ih =>
    obtain ⟨hr, hrest⟩ := List.nodup_cons.mp hnodup
    simp only [List.foldlM_cons, bind_eq_ok, hydrateRelationship_eq_ok]
    constructor
    · rintro ⟨next, ⟨records, hall, rfl⟩, hfold⟩
      obtain ⟨targets, rfl, hlinked, hsame⟩ := (ih hrest _).mp hfold
      refine ⟨targets, rfl, ?_, ?_⟩
      · intro s hs
        rcases List.mem_cons.mp hs with rfl | hs
        · exact ⟨records, hall, by rw [hsame s hr, Record.setTargets_targets_self]⟩
        · obtain ⟨further, hfurther, heq⟩ := hlinked s hs
          have hne : s ≠ r := fun h => hr (h ▸ hs)
          rw [Record.setTargets_targets, if_neg hne] at heq
          exact ⟨further, hfurther, heq⟩
      · intro s hs
        obtain ⟨hne, hs⟩ := not_or.mp (mt List.mem_cons.mpr hs)
        rw [hsame s hs, Record.setTargets_targets, if_neg hne]
    · rintro ⟨targets, rfl, hlinked, hsame⟩
      obtain ⟨records, hall, heq⟩ := hlinked r (List.mem_cons_self ..)
      refine ⟨_, ⟨records, hall, rfl⟩, (ih hrest _).mpr ⟨targets, rfl, ?_, ?_⟩⟩
      · intro s hs
        have hne : s ≠ r := fun h => hr (h ▸ hs)
        rw [Record.setTargets_targets, if_neg hne]
        exact hlinked s (List.mem_cons_of_mem _ hs)
      · intro s hs
        rw [Record.setTargets_targets]
        by_cases hsr : s = r
        · rw [if_pos hsr, hsr, heq]
        · rw [if_neg hsr]
          exact hsame s fun hmem => (List.mem_cons.mp hmem).elim hsr hs

/-- What a record built from its resource is. -/
theorem hydrate_eq_ok_iff (document : Document) (kind : Kind) (resource : Resource)
    (record : Record) :
    hydrate document kind resource = .ok record ↔
      ∃ attributes targets, record = ⟨kind, resource.id, attributes, targets⟩ ∧
        Row.read resource.attributes kind.schema = .ok attributes ∧
        (∀ r, r.source = kind → ∃ records, HydratesAll document resource r records ∧
          targets r = r.limit records) ∧
        ∀ r, r.source ≠ kind → targets r = [] := by
  rw [hydrate_eq, bind_eq_ok]
  constructor
  · rintro ⟨start, hstart, hfold⟩
    obtain ⟨attributes, hattributes, rfl⟩ := (readRecord_eq_ok ..).mp hstart
    obtain ⟨targets, rfl, hlinked, hsame⟩ :=
      (foldlM_hydrateRelationship document resource kind.nodup_relationships _ _).mp hfold
    refine ⟨attributes, targets, rfl, hattributes, ?_, ?_⟩
    · intro r hr
      obtain ⟨records, hall, heq⟩ := hlinked r ((r.mem_relationships_iff kind).mpr hr)
      exact ⟨records, hall, heq.trans (r.nil_joined records)⟩
    · intro r hr
      exact hsame r (mt (r.mem_relationships_iff kind).mp hr)
  · rintro ⟨attributes, targets, rfl, hattributes, hlinked, hsame⟩
    refine ⟨_, (readRecord_eq_ok ..).mpr ⟨attributes, hattributes, rfl⟩, ?_⟩
    apply (foldlM_hydrateRelationship document resource kind.nodup_relationships _ _).mpr
    refine ⟨targets, rfl, ?_, ?_⟩
    · intro r hr
      obtain ⟨records, hall, heq⟩ := hlinked r ((r.mem_relationships_iff kind).mp hr)
      exact ⟨records, hall, heq.trans (r.nil_joined records).symm⟩
    · intro r hr
      exact hsame r (mt (r.mem_relationships_iff kind).mpr hr)

end ResearchRecords.Document
