import ResearchRecords.Proofs.Record.Linking

/-!
Relationships as accessors. A relationship is found in its kind by its name; it tells the targets of
a record and links new ones to it, and touches nothing else. The first target of another kind
decides whether linking fails and which targets are linked.
-/
namespace ResearchRecords

namespace Relationship

theorem relationship?_eq_some_iff (kind : Kind) (name : String) (r : Relationship) :
    kind.relationship? name = some r ↔ r ∈ kind.relationships ∧ r.name = name := by
  constructor
  · intro h
    obtain ⟨hsource, hname⟩ := eq_of_relationship? h
    exact ⟨(mem_relationships_iff r kind).mpr hsource, hname⟩
  · rintro ⟨hmem, rfl⟩
    obtain rfl := (mem_relationships_iff r kind).mp hmem
    exact relationship?_name r

theorem mem_of_mem_accepted {r : Relationship} {targets : List Record} {target : Record}
    (h : target ∈ r.accepted targets) : target ∈ targets ∧ target.kind = r.target := by
  have hkind := List.mem_takeWhile_imp h
  exact ⟨(List.takeWhile_sublist _).mem h, by simpa using hkind⟩

/-- A mismatch parts the targets at the first of another kind. -/
theorem exists_of_mismatch? {r : Relationship} {targets : List Record} {mismatch : KindMismatch}
    (h : r.mismatch? targets = some mismatch) : ∃ front first rest,
      targets = front ++ first :: rest ∧ (∀ target ∈ front, target.kind = r.target) ∧
        first.kind ≠ r.target ∧ mismatch = ⟨r.target, first.kind⟩ ∧
        r.accepted targets = front := by
  obtain ⟨first, hfind, rfl⟩ := Option.map_eq_some_iff.mp h
  obtain ⟨hfirst, front, rest, rfl, hfront⟩ := List.find?_eq_some_iff_append.mp hfind
  have hkind : first.kind ≠ r.target := by simpa using hfirst
  have hkinds : ∀ target ∈ front, target.kind = r.target := by simpa using hfront
  refine ⟨front, first, rest, rfl, hkinds, hkind, rfl, ?_⟩
  rw [accepted, List.takeWhile_append_of_pos (by simpa using hkinds), ← accepted,
    accepted_cons_of_ne hkind, List.append_nil]

end Relationship

namespace Record

variable {record linked : Record} {r : Relationship} {targets : List Record}
  {mismatch? : Option KindMismatch}

/-- However linking ends, it changes nothing but the targets of the relationship. -/
theorem eq_setTargets_of_link (h : record.link r targets = (linked, mismatch?)) :
    linked = record.setTargets r (linked.targets r) := by
  rw [link_eq_accepted] at h
  obtain ⟨rfl, -⟩ := Prod.mk.inj h
  rw [setTargets_targets_self]

/-- Linking leaves a well-formed record, also when it fails. -/
theorem WellFormed.link (h : record.WellFormed) (hr : r.source = record.kind)
    (htargets : ∀ target ∈ targets, target.WellFormed) : (record.link r targets).1.WellFormed := by
  have ⟨_, _, single, kinds, nested⟩ := h
  rw [link_eq_accepted]
  refine h.setTargets hr (fun hone => Relationship.length_joined_le hone (single r hone) _) ?_
  intro target htarget
  rcases Relationship.mem_of_mem_joined htarget with hheld | hadded
  · exact ⟨kinds r target hheld, nested r target hheld⟩
  · obtain ⟨hmem, hkind⟩ := Relationship.mem_of_mem_accepted hadded
    exact ⟨hkind, htargets target (Relationship.mem_of_mem_limit hmem)⟩

/-- A relationship of a record's kind is found by its name alone, and tells of every record whether
it has targets and what their ids are. Linking to a list succeeds if all new targets are of the
right kind, and appends them; otherwise it appends those before the first of another kind and fails
on that. Linking to one target takes the first one; it fails if that is of another kind, and then
changes nothing. However it ends, nothing but these targets changes, and a well-formed record stays
well-formed. -/
theorem links_own_targets (hr : r ∈ record.kind.relationships)
    (h : record.link r targets = (linked, mismatch?)) :
    (∀ name, record.kind.relationship? name = some r ↔ name = r.name) ∧
      (∀ held : Record, (held.isUnset r = true ↔ held.targets r = []) ∧
        held.targetIds r = (held.targets r).map Record.id) ∧
      (r.cardinality = .toMany →
        (mismatch? = none ↔ ∀ target ∈ targets, target.kind = r.target) ∧
        (mismatch? = none → linked.targets r = record.targets r ++ targets) ∧
        ∀ mismatch, mismatch? = some mismatch → ∃ front first rest,
          targets = front ++ first :: rest ∧ (∀ target ∈ front, target.kind = r.target) ∧
          first.kind ≠ r.target ∧ mismatch = ⟨r.target, first.kind⟩ ∧
          linked.targets r = record.targets r ++ front) ∧
      (r.cardinality = .toOne →
        (∀ mismatch, mismatch? = some mismatch ↔ ∃ first rest,
          targets = first :: rest ∧ first.kind ≠ r.target ∧ mismatch = ⟨r.target, first.kind⟩) ∧
        (mismatch? ≠ none ∨ targets = [] → linked = record) ∧
        ∀ first rest, mismatch? = none → targets = first :: rest → linked.targets r = [first]) ∧
      linked = { record with targets := linked.targets } ∧
      (∀ s, s ≠ r → linked.targets s = record.targets s) ∧
      (record.WellFormed → (∀ target ∈ targets, target.WellFormed) → linked.WellFormed) := by
  have hsource := (Relationship.mem_relationships_iff r record.kind).mp hr
  have hframe := eq_setTargets_of_link h
  refine ⟨fun name => ?_, fun held => ⟨List.isEmpty_iff, rfl⟩, fun hmany => ?_, fun hone => ?_,
    ?_, fun s hs => ?_, fun hrecord htargets => ?_⟩
  · rw [Relationship.relationship?_eq_some_iff]
    exact ⟨fun hfound => hfound.2.symm, fun hname => ⟨hr, hname.symm⟩⟩
  · rw [link_of_toMany record r hmany] at h
    obtain ⟨rfl, rfl⟩ := Prod.mk.inj h
    rw [setTargets_targets_self]
    refine ⟨r.mismatch?_eq_none_iff targets, fun hnone => ?_, fun mismatch hsome => ?_⟩
    · rw [Relationship.accepted_eq_self ((r.mismatch?_eq_none_iff targets).mp hnone)]
    · obtain ⟨front, first, rest, heq, hfront, hfirst, hmismatch, haccepted⟩ :=
        Relationship.exists_of_mismatch? hsome
      exact ⟨front, first, rest, heq, hfront, hfirst, hmismatch, haccepted ▸ rfl⟩
  · cases targets with
    | nil =>
      rw [link_nil record r hone] at h
      obtain ⟨rfl, rfl⟩ := Prod.mk.inj h
      simp
    | cons first rest =>
      by_cases hkind : first.kind = r.target
      · rw [link_cons record r hone hkind] at h
        obtain ⟨rfl, rfl⟩ := Prod.mk.inj h
        simp [hkind]
      · rw [link_cons_of_ne record r hone hkind] at h
        obtain ⟨rfl, rfl⟩ := Prod.mk.inj h
        simp [hkind, eq_comm]
  · rw [hframe]
    rfl
  · rw [hframe, setTargets_targets, if_neg hs]
  · have hlinked := hrecord.link hsource htargets
    rwa [h] at hlinked

/-- A grant with an investigator and one more. -/
def staffedGrant : Record :=
  ((stub .grant "1").setTargets .grantPi [stub .user "7"]).setTargets .grantCoPis [stub .user "2"]

theorem staffedGrant_wellFormed : staffedGrant.WellFormed := by
  have hstub : ∀ kind id, (stub kind id).WellFormed :=
    fun _ _ => wellFormed_of_targets_eq_nil fun _ => rfl
  refine ((hstub .grant "1").setTargets rfl (fun _ => by simp) ?_).setTargets rfl
    (fun h => nomatch h) ?_
  all_goals
    intro target htarget
    obtain rfl := List.mem_singleton.mp htarget
    exact ⟨rfl, hstub _ _⟩

theorem links_own_targets_strayFunder : ∃ linked,
    staffedGrant.link .grantCoPis
        [stub .user "3", stub .user "4", stub .funder "5", stub .user "6"] =
      (linked, some ⟨.user, .funder⟩) ∧
      linked.targetIds .grantCoPis = [some "2", some "3", some "4"] ∧
      linked.targets .grantPi = [stub .user "7"] ∧ linked.WellFormed := by
  have hlink : staffedGrant.link .grantCoPis
        [stub .user "3", stub .user "4", stub .funder "5", stub .user "6"] =
      ((staffedGrant.link .grantCoPis
        [stub .user "3", stub .user "4", stub .funder "5", stub .user "6"]).1,
        some ⟨.user, .funder⟩) := Prod.ext rfl (by decide)
  obtain ⟨_, _, _, _, _, hothers, hwellFormed⟩ := links_own_targets (by decide) hlink
  refine ⟨_, hlink, by decide, hothers .grantPi (by decide),
    hwellFormed staffedGrant_wellFormed fun target htarget => ?_⟩
  simp only [List.mem_cons, List.not_mem_nil, or_false] at htarget
  rcases htarget with rfl | rfl | rfl | rfl
  all_goals exact wellFormed_of_targets_eq_nil fun _ => rfl

end Record

end ResearchRecords
