import ResearchRecords.Document.Merge
import ResearchRecords.Proofs.Document.Hydration

/-!
What merging does to a record. An entry under a declared name fills the relationship of this name: a
single target is set to the stub of the first id if there is none yet, and a list is extended by the
stubs of the ids it does not have. Entries in a row fill every relationship by itself, so merging
them once more changes nothing, and entries of different names can change places.
-/
namespace ResearchRecords.Document

open Results

theorem kind_of_missingStubs (record : Record) (r : Relationship) (ids : List String) :
    ∀ stub ∈ missingStubs record r ids, stub.kind = r.target := by
  have hstub : ∀ some : List String, ∀ stub ∈ some.map (Record.stub r.target),
      stub.kind = r.target := by
    intro some stub hstub
    obtain ⟨id, _, rfl⟩ := List.mem_map.mp hstub
    rfl
  intro stub hmem
  unfold missingStubs at hmem
  split at hmem
  · split at hmem
    · exact hstub _ stub hmem
    · simp at hmem
  · exact hstub _ stub hmem

theorem missingStubs_of_toOne {r : Relationship} (h : r.cardinality = .toOne) (record : Record)
    (ids : List String) : missingStubs record r ids =
      if record.isUnset r then (ids.take 1).map (.stub r.target) else [] := by
  rw [missingStubs, h]

theorem missingStubs_of_toMany {r : Relationship} (h : r.cardinality = .toMany) (record : Record)
    (ids : List String) : missingStubs record r ids =
      (ids.filter fun id => !(record.targetIds r).contains (some id)).map (.stub r.target) := by
  rw [missingStubs, h]

/-- The targets of a relationship after merging an entry with these ids. -/
def filled (record : Record) (r : Relationship) (ids : List String) : List Record :=
  r.joined (record.targets r) (missingStubs record r ids)

theorem mergeEntry_eq {record : Record} {entry : Outstanding} {r : Relationship}
    (hr : record.kind.relationship? entry.name = some r) (hkind : entry.kind = r.target.name) :
    mergeEntry record entry = .ok (record.setTargets r (filled record r entry.ids)) := by
  simp only [mergeEntry, hr]
  rw [if_neg (not_not.mpr hkind), linkTargets_eq _ _ (kind_of_missingStubs record r entry.ids)]
  rfl

theorem id_of_mergeEntry {record next : Record} {entry : Outstanding}
    (h : mergeEntry record entry = .ok next) : next.id = record.id := by
  unfold mergeEntry at h
  split at h
  · exact Except.ok.inj h ▸ rfl
  · split at h
    · exact absurd h (by simp)
    · rw [linkTargets_eq _ _ (kind_of_missingStubs _ _ _)] at h
      exact Except.ok.inj h ▸ rfl

theorem id_merge (record : Record) (entries : List Outstanding) :
    (merge record entries).1.id = record.id := by
  induction entries generalizing record with
  | nil => rfl
  | cons entry rest ih =>
    rw [merge]
    cases hentry : mergeEntry record entry with
    | error fault => rfl
    | ok next => exact (ih next).trans (id_of_mergeEntry hentry)

theorem mergeEntry_of_undeclared {record : Record} {entry : Outstanding}
    (h : record.kind.relationship? entry.name = none) : mergeEntry record entry = .ok record := by
  rw [mergeEntry, h]

/-- The targets that an entry with these ids leaves, from those held before. -/
def fill (r : Relationship) (held : List Record) (ids : List String) : List Record :=
  match r.cardinality with
  | .toOne => if held.isEmpty then (ids.take 1).map (.stub r.target) else held
  | .toMany =>
    held ++ (ids.filter fun id => !(held.map Record.id).contains (some id)).map (.stub r.target)

theorem fill_of_toOne {r : Relationship} (h : r.cardinality = .toOne) (held : List Record)
    (ids : List String) :
    fill r held ids = if held.isEmpty then (ids.take 1).map (.stub r.target) else held := by
  rw [fill, h]

theorem fill_of_toMany {r : Relationship} (h : r.cardinality = .toMany) (held : List Record)
    (ids : List String) : fill r held ids =
      held ++ (ids.filter fun id => !(held.map Record.id).contains (some id)).map
        (.stub r.target) := by
  rw [fill, h]

theorem filled_eq_fill (record : Record) (r : Relationship) (ids : List String) :
    filled record r ids = fill r (record.targets r) ids := by
  rw [filled]
  cases hcardinality : r.cardinality with
  | toOne =>
    rw [missingStubs_of_toOne hcardinality, fill_of_toOne hcardinality, Record.isUnset]
    cases record.targets r with
    | nil =>
      rw [List.isEmpty_nil, if_pos rfl, Relationship.nil_joined,
        Relationship.limit_of_toOne hcardinality, List.map_take, List.take_take, Nat.min_self]
    | cons first rest => exact Relationship.joined_nil r _
  | toMany =>
    rw [missingStubs_of_toMany hcardinality, fill_of_toMany hcardinality,
      Relationship.joined_of_toMany hcardinality]
    rfl

@[simp] theorem fill_nil (r : Relationship) (held : List Record) : fill r held [] = held := by
  cases hcardinality : r.cardinality with
  | toOne =>
    rw [fill_of_toOne hcardinality]
    cases held <;> rfl
  | toMany =>
    rw [fill_of_toMany hcardinality]
    exact List.append_nil held

/-- A list that has all the ids takes no stubs. -/
theorem fill_of_contained {r : Relationship} (h : r.cardinality = .toMany) {held : List Record}
    {ids : List String} (hids : ∀ id ∈ ids, some id ∈ held.map Record.id) :
    fill r held ids = held := by
  have hnone : ids.filter (fun id => !(held.map Record.id).contains (some id)) = [] := by
    rw [List.filter_eq_nil_iff]
    intro id hid
    simpa using hids id hid
  rw [fill_of_toMany h, hnone, List.map_nil, List.append_nil]

theorem mem_ids_fill {r : Relationship} (h : r.cardinality = .toMany) (held : List Record)
    (ids : List String) (id : String) : some id ∈ (fill r held ids).map Record.id ↔
      some id ∈ held.map Record.id ∨ id ∈ ids := by
  have hstubs : ∀ added : List String,
      some id ∈ (added.map (Record.stub r.target)).map Record.id ↔ id ∈ added := fun added => by
    simp [Record.stub, Record.withId]
  rw [fill_of_toMany h, List.map_append, List.mem_append, hstubs, List.mem_filter]
  by_cases hheld : some id ∈ held.map Record.id
  · simp [hheld]
  · simp [hheld]

/-- The targets that all entries leave, those under the name of the relationship in their order. -/
def fillAll (r : Relationship) (held : List Record) : List Outstanding → List Record
  | [] => held
  | entry :: rest => fillAll r (if entry.name = r.name then fill r held entry.ids else held) rest

/-- The first id of the first entry of this name that has any. -/
def firstId? (entries : List Outstanding) (name : String) : Option String :=
  (entries.find? fun entry => entry.name = name ∧ entry.ids ≠ []).bind fun entry =>
    entry.ids.head?

theorem fillAll_append (r : Relationship) (held : List Record) (front back : List Outstanding) :
    fillAll r held (front ++ back) = fillAll r (fillAll r held front) back := by
  induction front generalizing held with
  | nil => rfl
  | cons entry rest ih => exact ih _

theorem fillAll_of_unnamed {r : Relationship} {entries : List Outstanding}
    (h : ∀ entry ∈ entries, entry.name ≠ r.name) (held : List Record) :
    fillAll r held entries = held := by
  induction entries with
  | nil => rfl
  | cons entry rest ih =>
    obtain ⟨hfirst, hrest⟩ := List.forall_mem_cons.mp h
    rw [fillAll, if_neg hfirst, ih hrest]

theorem firstId?_cons (entry : Outstanding) (rest : List Outstanding) (name : String) :
    firstId? (entry :: rest) name =
      if entry.name = name then entry.ids.head?.or (firstId? rest name)
      else firstId? rest name := by
  unfold firstId?
  by_cases hname : entry.name = name
  · cases hids : entry.ids with
    | nil => simp [hids]
    | cons id ids => simp [hname, hids]
  · simp [hname]

/-- A single target that is set stays; otherwise the first id decides. -/
theorem fillAll_of_toOne {r : Relationship} (h : r.cardinality = .toOne) (held : List Record)
    (entries : List Outstanding) : fillAll r held entries =
      if held = [] then (firstId? entries r.name).toList.map (.stub r.target) else held := by
  induction entries generalizing held with
  | nil =>
    rw [fillAll]
    split
    · assumption
    · rfl
  | cons entry rest ih =>
    rw [fillAll, ih, firstId?_cons]
    by_cases hname : entry.name = r.name
    · rw [if_pos hname, if_pos hname, fill_of_toOne h]
      cases held with
      | cons first others => simp
      | nil => cases hids : entry.ids <;> simp
    · rw [if_neg hname, if_neg hname]

theorem exists_fillAll_of_toMany {r : Relationship} (h : r.cardinality = .toMany)
    (held : List Record) (entries : List Outstanding) :
    ∃ added : List String, fillAll r held entries = held ++ added.map (.stub r.target) := by
  induction entries generalizing held with
  | nil => exact ⟨[], (List.append_nil held).symm⟩
  | cons entry rest ih =>
    rw [fillAll]
    split
    · obtain ⟨added, hadded⟩ := ih (fill r held entry.ids)
      rw [hadded, fill_of_toMany h, List.append_assoc, ← List.map_append]
      exact ⟨_, rfl⟩
    · exact ih held

theorem mem_ids_fillAll {r : Relationship} (h : r.cardinality = .toMany) (held : List Record)
    (entries : List Outstanding) (id : String) :
    some id ∈ (fillAll r held entries).map Record.id ↔ some id ∈ held.map Record.id ∨
      ∃ entry ∈ entries, entry.name = r.name ∧ id ∈ entry.ids := by
  induction entries generalizing held with
  | nil => simp [fillAll]
  | cons entry rest ih =>
    rw [fillAll, ih]
    by_cases hname : entry.name = r.name
    · rw [if_pos hname, mem_ids_fill h, or_assoc]
      simp [hname]
    · rw [if_neg hname]
      simp [hname]

theorem fillAll_of_contained {r : Relationship} (h : r.cardinality = .toMany) {held : List Record}
    {entries : List Outstanding} (hids : ∀ entry ∈ entries, entry.name = r.name →
      ∀ id ∈ entry.ids, some id ∈ held.map Record.id) : fillAll r held entries = held := by
  induction entries with
  | nil => rfl
  | cons entry rest ih =>
    obtain ⟨hfirst, hrest⟩ := List.forall_mem_cons.mp hids
    rw [fillAll]
    split
    · next hname =>
      rw [fill_of_contained h (hfirst hname)]
      exact ih hrest
    · exact ih hrest

/-- Filled once, a relationship has nothing left to take from the same entries. -/
theorem fillAll_fillAll (r : Relationship) (held : List Record) (entries : List Outstanding) :
    fillAll r (fillAll r held entries) entries = fillAll r held entries := by
  cases hcardinality : r.cardinality with
  | toOne =>
    rw [fillAll_of_toOne hcardinality (fillAll r held entries)]
    split
    · next hempty =>
      rw [fillAll_of_toOne hcardinality] at hempty ⊢
      split at hempty
      · next hheld => rw [if_pos hheld]
      · next hheld => exact absurd hempty hheld
    · rfl
  | toMany =>
    apply fillAll_of_contained hcardinality
    intro entry hentry hname id hid
    exact (mem_ids_fillAll hcardinality ..).mpr (.inr ⟨entry, hentry, hname, hid⟩)

/-- At most one of two entries of different names fills a relationship. -/
theorem fillAll_swap (r : Relationship) (held : List Record) {a b : Outstanding}
    (h : a.name ≠ b.name) (before after : List Outstanding) :
    fillAll r held (before ++ b :: a :: after) = fillAll r held (before ++ a :: b :: after) := by
  simp only [fillAll_append, fillAll]
  by_cases ha : a.name = r.name
  · have hb : b.name ≠ r.name := fun hb => h (ha.trans hb.symm)
    simp only [if_neg hb]
  · simp only [if_neg ha]

namespace Outstanding

/-- The entry is of the kind that the relationship of its name declares, if there is one. -/
def Declared (kind : Kind) (entry : Outstanding) : Prop :=
  ∀ r, kind.relationship? entry.name = some r → entry.kind = r.target.name

end Outstanding

/-- The targets of a record into which all entries are merged. -/
def mergedAll (record : Record) (entries : List Outstanding) (r : Relationship) : List Record :=
  if r.source = record.kind then fillAll r (record.targets r) entries else record.targets r

theorem mergedAll_nil (record : Record) : mergedAll record [] = record.targets := by
  funext r
  exact ite_self _

theorem mergedAll_of_undeclared {record : Record} {entry : Outstanding}
    (h : record.kind.relationship? entry.name = none) (rest : List Outstanding) :
    mergedAll record (entry :: rest) = mergedAll record rest := by
  funext r
  rw [mergedAll, mergedAll, fillAll]
  split
  · next hsource =>
    have hother : entry.name ≠ r.name := by
      intro hname
      rw [hname, ← hsource, Relationship.relationship?_name] at h
      cases h
    rw [if_neg hother]
  · rfl

/-- An entry fills its relationship at once, and the others are left for the rest. -/
theorem mergedAll_setTargets {record : Record} {entry : Outstanding} {declared : Relationship}
    (h : record.kind.relationship? entry.name = some declared) (rest : List Outstanding) :
    mergedAll (record.setTargets declared (filled record declared entry.ids)) rest =
      mergedAll record (entry :: rest) := by
  obtain ⟨hdeclared, hname⟩ := Relationship.eq_of_relationship? h
  funext r
  rw [mergedAll, mergedAll, Record.setTargets_kind, Record.setTargets_targets, fillAll]
  by_cases hsource : r.source = record.kind
  · rw [if_pos hsource, if_pos hsource]
    by_cases heq : r = declared
    · rw [if_pos heq, heq, if_pos hname.symm, filled_eq_fill]
    · have hother : entry.name ≠ r.name := fun hsame =>
        heq (Relationship.name_injective (hsource.trans hdeclared.symm) (hname.trans hsame).symm)
      rw [if_neg heq, if_neg hother]
  · have heq : r ≠ declared := fun heq => hsource (heq ▸ hdeclared)
    rw [if_neg hsource, if_neg hsource, if_neg heq]

/-- Merging entries of the declared kinds succeeds and fills each relationship by itself. -/
theorem merge_of_declared (record : Record) {entries : List Outstanding}
    (h : ∀ entry ∈ entries, entry.Declared record.kind) :
    merge record entries = ({ record with targets := mergedAll record entries }, none) := by
  induction entries generalizing record with
  | nil =>
    obtain ⟨kind, id, attributes, targets⟩ := record
    rw [merge, mergedAll_nil]
  | cons entry rest ih =>
    obtain ⟨hentry, hrest⟩ := List.forall_mem_cons.mp h
    cases hr : record.kind.relationship? entry.name with
    | none =>
      rw [merge, mergeEntry_of_undeclared hr, mergedAll_of_undeclared hr]
      exact ih record hrest
    | some declared =>
      rw [merge, mergeEntry_eq hr (hentry declared hr), ← mergedAll_setTargets hr]
      exact ih (record.setTargets declared (filled record declared entry.ids)) hrest

/-- Merging succeeds only if all entries are of the declared kinds. -/
theorem declared_of_merge {record merged : Record} {entries : List Outstanding}
    (h : merge record entries = (merged, none)) :
    ∀ entry ∈ entries, entry.Declared record.kind := by
  induction entries generalizing record with
  | nil => exact fun _ hentry => absurd hentry List.not_mem_nil
  | cons entry rest ih =>
    rw [merge] at h
    cases hr : record.kind.relationship? entry.name with
    | none =>
      rw [mergeEntry_of_undeclared hr] at h
      refine List.forall_mem_cons.mpr ⟨fun r hsome => ?_, ih h⟩
      rw [hr] at hsome
      cases hsome
    | some declared =>
      by_cases hkind : entry.kind = declared.target.name
      · rw [mergeEntry_eq hr hkind] at h
        have hrest := ih h
        refine List.forall_mem_cons.mpr ⟨fun r hsome => ?_, hrest⟩
        exact Option.some.inj (hr.symm.trans hsome) ▸ hkind
      · simp [mergeEntry, hr, hkind] at h

theorem merge_eq_ok_iff (record merged : Record) (entries : List Outstanding) :
    merge record entries = (merged, none) ↔ (∀ entry ∈ entries, entry.Declared record.kind) ∧
      merged = { record with targets := mergedAll record entries } := by
  constructor
  · intro h
    have hdeclared := declared_of_merge h
    rw [merge_of_declared record hdeclared] at h
    exact ⟨hdeclared, (Prod.mk.inj h).1.symm⟩
  · rintro ⟨hdeclared, rfl⟩
    exact merge_of_declared record hdeclared

/-- What entries do to a record into which they can be merged: nothing but declared relationships that
they name changes. A single target that is set stays, and one that is unset becomes the stub of
the first id under its name; a list is extended by stubs, to hold all ids under its name. Merging
the entries again changes nothing, and two neighbours of different names can change places. -/
theorem merge_fills {record merged : Record} {entries : List Outstanding}
    (h : merge record entries = (merged, none)) :
    (∃ targets, merged = { record with targets }) ∧
      (∀ r, r.source = record.kind → r.cardinality = .toOne → merged.targets r =
        if record.targets r = [] then (firstId? entries r.name).toList.map (.stub r.target)
        else record.targets r) ∧
      (∀ r, r.source = record.kind → r.cardinality = .toMany →
        (∃ added : List String,
          merged.targets r = record.targets r ++ added.map (.stub r.target)) ∧
        ∀ id, some id ∈ merged.targetIds r ↔ some id ∈ record.targetIds r ∨
          ∃ entry ∈ entries, entry.name = r.name ∧ id ∈ entry.ids) ∧
      (∀ r, r.source ≠ record.kind ∨ (∀ entry ∈ entries, entry.name ≠ r.name) →
        merged.targets r = record.targets r) ∧
      merge merged entries = (merged, none) ∧
      ∀ before a b after, entries = before ++ a :: b :: after → a.name ≠ b.name →
        merge record (before ++ b :: a :: after) = (merged, none) := by
  obtain ⟨hdeclared, rfl⟩ := (merge_eq_ok_iff ..).mp h
  refine ⟨⟨_, rfl⟩, ?_, ?_, ?_, ?_, ?_⟩
  · intro r hsource hone
    exact (if_pos hsource).trans (fillAll_of_toOne hone ..)
  · intro r hsource hmany
    have htargets : mergedAll record entries r = fillAll r (record.targets r) entries :=
      if_pos hsource
    refine ⟨?_, fun id => ?_⟩
    · obtain ⟨added, hadded⟩ := exists_fillAll_of_toMany hmany (record.targets r) entries
      exact ⟨added, htargets.trans hadded⟩
    · simp only [Record.targetIds, htargets]
      exact mem_ids_fillAll hmany ..
  · rintro r (hforeign | hunnamed)
    · exact if_neg hforeign
    · show mergedAll record entries r = record.targets r
      rw [mergedAll, fillAll_of_unnamed hunnamed, ite_self]
  · refine (merge_eq_ok_iff ..).mpr ⟨hdeclared, ?_⟩
    congr 1
    funext r
    simp only [mergedAll]
    split
    · exact (fillAll_fillAll ..).symm
    · rfl
  · rintro before a b after rfl hne
    have hswapped : ∀ entry ∈ before ++ b :: a :: after, entry.Declared record.kind := by
      intro entry hentry
      apply hdeclared
      simp only [List.mem_append, List.mem_cons] at hentry ⊢
      tauto
    rw [merge_of_declared record hswapped]
    congr 2
    funext r
    simp only [mergedAll, fillAll_swap r _ hne]

/-- A submission with a submitter and one grant. -/
def halfLinked : Record :=
  ((Record.stub .submission "1").setTargets .submissionSubmitter [.stub .user "9"]).setTargets
    .submissionGrants [.stub .grant "2"]

def repeatingEntries : List Outstanding :=
  [⟨"grants", "grant", ["2", "3", "3"], true⟩, ⟨"publication", "publication", [], false⟩,
    ⟨"notes", "note", ["7"], true⟩, ⟨"publication", "publication", ["5", "6"], true⟩,
    ⟨"submitter", "user", ["8"], false⟩, ⟨"grants", "grant", ["3", "4"], false⟩]

theorem merge_fills_halfLinked : ∃ merged,
    merge halfLinked repeatingEntries = (merged, none) ∧
      merged.targetIds .submissionGrants = [some "2", some "3", some "3", some "4"] ∧
      merged.targets .submissionPublication = [.stub .publication "5"] ∧
      merged.targets .submissionSubmitter = [.stub .user "9"] ∧
      merge merged repeatingEntries = (merged, none) := by
  have hmerge : merge halfLinked repeatingEntries =
      ((merge halfLinked repeatingEntries).1, none) := Prod.ext rfl (by decide +kernel)
  obtain ⟨_, hone, _, _, hagain, _⟩ := merge_fills hmerge
  exact ⟨_, hmerge, by decide +kernel, hone .submissionPublication rfl rfl,
    hone .submissionSubmitter rfl rfl, hagain⟩

end ResearchRecords.Document
