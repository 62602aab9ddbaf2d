import ResearchRecords.Proofs.Document.Filling
import ResearchRecords.Proofs.Json.Members

/-!
Outstanding targets and the stubs made of them. A resource has at most one entry for each of its
relationships, with the targets of its linkage that are not included. Merging these entries fills
every relationship of a record independently of the others.
-/
namespace ResearchRecords.Document

open Json (Members)
open Results

namespace Outstanding

/-- The targets of a linkage that are not included. -/
def missing (included : List Target) (linkage : Linkage) : List Target :=
  linkage.targets.filter fun t => !included.contains t

/-- The entry for the linkage under a name, where a target is missing. -/
def outstanding? (included : List Target) (m : String × Linkage) : Option Outstanding :=
  (missing included m.2).head?.map fun t =>
    ⟨m.1, t.1, (missing included m.2).map Prod.snd, isMany m.2⟩

/-- The ids that the first entry of this name lists. -/
def idsUnder (entries : List Outstanding) (name : String) : List String :=
  ((entries.find? fun entry => entry.name = name).map Outstanding.ids).getD []

theorem idsUnder_cons (entry : Outstanding) (entries : List Outstanding) (name : String) :
    idsUnder (entry :: entries) name =
      if entry.name = name then entry.ids else idsUnder entries name := by
  unfold idsUnder
  by_cases h : entry.name = name
  · simp [h]
  · simp [h]

theorem idsUnder_eq_nil {entries : List Outstanding} {name : String}
    (h : name ∉ entries.map Outstanding.name) : idsUnder entries name = [] := by
  have hnone : entries.find? (fun entry => entry.name = name) = none := by
    rw [List.find?_eq_none]
    intro entry hentry hname
    exact h (List.mem_map.mpr ⟨entry, hentry, by simpa using hname⟩)
  rw [idsUnder, hnone]
  rfl

theorem mixed?_eq_none {targets : List Target} {kind : String} (h : ∀ t ∈ targets, t.1 = kind) :
    mixed? targets = none := by
  cases targets with
  | nil => rfl
  | cons first rest =>
    obtain ⟨hfirst, hrest⟩ := List.forall_mem_cons.mp h
    simp only [mixed?, Option.map_eq_none_iff, List.find?_eq_none]
    intro t ht
    simp [hrest t ht, hfirst]

theorem ofTargets_of_unmixed (name : String) (toMany : Bool) {targets : List Target}
    (h : mixed? targets = none) :
    ofTargets name toMany targets =
      .ok (targets.head?.map fun t => ⟨name, t.1, targets.map Prod.snd, toMany⟩) := by
  cases targets with
  | nil => rfl
  | cons first rest => simp [ofTargets, h]

theorem ofLinkage_eq {included : List Target} {m : String × Linkage} {found : Option Outstanding}
    (h : ofLinkage included m.1 m.2 = .ok found) : found = outstanding? included m := by
  change ofTargets m.1 (isMany m.2) (missing included m.2) = .ok found at h
  cases hmixed : mixed? (missing included m.2) with
  | none =>
    rw [ofTargets_of_unmixed m.1 (isMany m.2) hmixed] at h
    exact (Except.ok.inj h).symm
  | some types => simp [ofTargets, hmixed] at h

theorem mixed?_eq_none_iff (targets : List Target) :
    mixed? targets = none ↔ ∀ t ∈ targets, ∀ u ∈ targets, t.1 = u.1 := by
  constructor
  · cases targets with
    | nil => simp
    | cons first rest =>
      intro h
      have hfirst : ∀ t ∈ first :: rest, t.1 = first.1 := by
        simp only [mixed?, Option.map_eq_none_iff, List.find?_eq_none] at h
        simpa using h
      exact fun t ht u hu => (hfirst t ht).trans (hfirst u hu).symm
  · intro h
    cases targets with
    | nil => rfl
    | cons first rest => exact mixed?_eq_none fun t ht => h t ht first (List.mem_cons_self ..)

theorem ofTargets_eq_error {name : String} {toMany : Bool} {targets : List Target}
    {fault : Fault} (h : ofTargets name toMany targets = .error fault) :
    ∃ types, mixed? targets = some types ∧ fault = .mixedTargets name types.1 types.2 := by
  cases hmixed : mixed? targets with
  | none =>
    rw [ofTargets_of_unmixed name toMany hmixed] at h
    cases h
  | some types =>
    refine ⟨types, rfl, ?_⟩
    simpa [ofTargets, hmixed] using h.symm

theorem exists_ofLinkage_iff (included : List Target) (m : String × Linkage) :
    (∃ found?, ofLinkage included m.1 m.2 = .ok found?) ↔
      mixed? (missing included m.2) = none := by
  show (∃ found?, ofTargets m.1 (isMany m.2) (missing included m.2) = .ok found?) ↔ _
  cases hmixed : mixed? (missing included m.2) with
  | none => simp [ofTargets_of_unmixed m.1 (isMany m.2) hmixed]
  | some types => simp [ofTargets, hmixed]

variable (included : List Target)

theorem outstanding?_eq_some {included : List Target} {m : String × Linkage} {entry : Outstanding}
    (h : outstanding? included m = some entry) :
    entry.name = m.1 ∧ ∃ t ∈ m.2.targets, entry.kind = t.1 := by
  obtain ⟨t, ht, rfl⟩ := Option.map_eq_some_iff.mp h
  exact ⟨rfl, t, List.mem_of_mem_filter (List.mem_of_head? ht), rfl⟩

theorem names_entries (relationships : Members Linkage) :
    ((relationships.filterMap (outstanding? included)).map Outstanding.name).Sublist
      (Members.names relationships) := by
  induction relationships with
  | nil => exact .slnil
  | cons m rest ih =>
    rw [Members.names, List.map_cons]
    cases hentry : outstanding? included m with
    | none =>
      rw [List.filterMap_cons_none hentry]
      exact ih.cons m.1
    | some entry =>
      rw [List.filterMap_cons_some hentry, List.map_cons, (outstanding?_eq_some hentry).1]
      exact ih.cons_cons m.1

/-- Under each name are the ids of the targets that its linkage misses. -/
theorem idsUnder_entries {relationships : Members Linkage}
    (hnodup : (Members.names relationships).Nodup) (name : String) :
    idsUnder (relationships.filterMap (outstanding? included)) name =
      (missing included ((Members.get? relationships name).getD .absent)).map Prod.snd := by
  induction relationships with
  | nil => rfl
  | cons m rest ih =>
    obtain ⟨hnew, hrest⟩ := List.nodup_cons.mp hnodup
    rw [Members.get?_cons]
    by_cases hname : m.1 = name
    · have hget : Members.get? rest name = none :=
        (Members.get?_eq_none_iff rest name).mpr (hname ▸ hnew)
      have hids : idsUnder (rest.filterMap (outstanding? included)) name = [] :=
        idsUnder_eq_nil fun h => hnew (hname ▸ (names_entries included rest).subset h)
      rw [hget, if_pos hname, Option.none_or, Option.getD_some]
      cases hmissing : missing included m.2 with
      | nil =>
        have hentry : outstanding? included m = none := by rw [outstanding?, hmissing]; rfl
        rw [List.filterMap_cons_none hentry, hids]
        rfl
      | cons t others =>
        have hentry : outstanding? included m =
            some ⟨m.1, t.1, (t :: others).map Prod.snd, isMany m.2⟩ := by
          rw [outstanding?, hmissing]
          rfl
        rw [List.filterMap_cons_some hentry, idsUnder_cons, if_pos hname]
    · rw [if_neg hname, Option.or_none, ← ih hrest]
      cases hentry : outstanding? included m with
      | none => rw [List.filterMap_cons_none hentry]
      | some entry =>
        have hother : entry.name ≠ name := (outstanding?_eq_some hentry).1 ▸ hname
        rw [List.filterMap_cons_some hentry, idsUnder_cons, if_neg hother]

end Outstanding

theorem outstandingOf_eq {included : List Target} {resource : ScannedResource}
    {entries : List Outstanding} (h : outstandingOf included resource = .ok entries) :
    entries = resource.relationships.filterMap (Outstanding.outstanding? included) := by
  simp only [outstandingOf, bind_eq_ok, pure_eq_ok] at h
  obtain ⟨found, hfound, rfl⟩ := h
  rw [mapM_eq_map hfound fun m _ outstanding? h => Outstanding.ofLinkage_eq h]
  exact List.filterMap_map ..

theorem exists_outstandingOf_iff (included : List Target) (resource : ScannedResource) :
    (∃ entries, outstandingOf included resource = .ok entries) ↔
      ∀ m ∈ resource.relationships,
        Outstanding.mixed? (Outstanding.missing included m.2) = none := by
  have hmapM : (∃ found, resource.relationships.mapM
      (fun m => Outstanding.ofLinkage included m.1 m.2) = .ok found) ↔
        ∀ m ∈ resource.relationships,
          Outstanding.mixed? (Outstanding.missing included m.2) = none := by
    simp only [exists_mapM_iff, Outstanding.exists_ofLinkage_iff]
  rw [← hmapM]
  simp only [outstandingOf, bind_eq_ok, pure_eq_ok]
  constructor
  · rintro ⟨_, found, hfound, _⟩
    exact ⟨found, hfound⟩
  · rintro ⟨found, hfound⟩
    exact ⟨_, found, hfound, rfl⟩

theorem outstandingOf_of_kinds (included : List Target) {resource : ScannedResource}
    (h : ∀ m ∈ resource.relationships, ∃ kind, ∀ t ∈ m.2.targets, t.1 = kind) :
    ∃ entries, outstandingOf included resource = .ok entries := by
  apply (exists_outstandingOf_iff included resource).mpr
  intro m hm
  obtain ⟨kind, hkind⟩ := h m hm
  exact Outstanding.mixed?_eq_none fun t ht => hkind t (List.mem_of_mem_filter ht)

/-- Of entries of different names one at most fills a relationship. -/
theorem fillAll_of_nodup (r : Relationship) (held : List Record) {entries : List Outstanding}
    (hnodup : (entries.map Outstanding.name).Nodup) :
    fillAll r held entries = fill r held (Outstanding.idsUnder entries r.name) := by
  induction entries generalizing held with
  | nil => exact (fill_nil r held).symm
  | cons entry rest ih =>
    obtain ⟨hnew, hrest⟩ := List.nodup_cons.mp hnodup
    rw [fillAll, Outstanding.idsUnder_cons]
    split
    · next hname =>
      apply fillAll_of_unnamed
      intro other hother heq
      exact hnew (hname ▸ heq ▸ List.mem_map_of_mem hother)
    · exact ih held hrest

/-- The targets after merging entries: each declared relationship is filled by itself. -/
def mergedTargets (record : Record) (entries : List Outstanding) (r : Relationship) :
    List Record :=
  if r.source = record.kind then filled record r (Outstanding.idsUnder entries r.name)
  else record.targets r

/-- Merging entries of different names and of the declared kinds succeeds. -/
theorem merge_eq (record : Record) {entries : List Outstanding}
    (hnodup : (entries.map Outstanding.name).Nodup)
    (hkinds : ∀ entry ∈ entries, ∀ r, record.kind.relationship? entry.name = some r →
      entry.kind = r.target.name) :
    merge record entries =
      ({ record with targets := mergedTargets record entries }, none) := by
  have hsame : mergedAll record entries = mergedTargets record entries := by
    funext r
    rw [mergedAll, mergedTargets, filled_eq_fill, fillAll_of_nodup r _ hnodup]
  rw [merge_of_declared record hkinds, hsame]

end ResearchRecords.Document
