import ResearchRecords.Proofs.Document.Pages

/-!
Where merging stops. An entry of another kind than its declared relationship ends the merge of its
record, whatever the relationship holds already and whatever ids the entry lists. The entries before
it are merged and those after it are not looked at. Several records are merged one by one, up to the
first whose own entries end its merge.
-/
namespace ResearchRecords.Document

open Json (Members)
open Results

/-- The entry is of another kind than the relationship that its name declares. -/
def Outstanding.Foreign (kind : Kind) (entry : Outstanding) : Prop :=
  ∃ r, kind.relationship? entry.name = some r ∧ entry.kind ≠ r.target.name

theorem Outstanding.declared_iff (kind : Kind) (entry : Outstanding) :
    entry.Declared kind ↔ ¬ entry.Foreign kind := by
  simp [Declared, Foreign]

theorem kind_merge {record merged : Record} {entries : List Outstanding}
    (h : merge record entries = (merged, none)) : merged.kind = record.kind := by
  obtain ⟨_, rfl⟩ := (merge_eq_ok_iff ..).mp h
  rfl

theorem merge_append {record merged : Record} {front : List Outstanding}
    (h : merge record front = (merged, none)) (back : List Outstanding) :
    merge record (front ++ back) = merge merged back := by
  induction front generalizing record with
  | nil => rw [List.nil_append, (Prod.mk.inj h).1]
  | cons entry rest ih =>
    rw [merge] at h
    rw [List.cons_append, merge]
    cases hentry : mergeEntry record entry with
    | ok next =>
      rw [hentry] at h
      exact ih h
    | error fault =>
      rw [hentry] at h
      cases (Prod.mk.inj h).2

theorem mergeEntry_of_foreign {record : Record} {entry : Outstanding} {r : Relationship}
    (hr : record.kind.relationship? entry.name = some r) (hkind : entry.kind ≠ r.target.name) :
    mergeEntry record entry = .error (.targetKind r.name r.target entry.kind) := by
  simp [mergeEntry, hr, hkind]

/-- A merge that fails has merged the entries before the first foreign one, and names this one. -/
theorem merge_eq_fault_iff (record left : Record) (entries : List Outstanding) (fault : Fault) :
    merge record entries = (left, some fault) ↔
      ∃ before entry after r, entries = before ++ entry :: after ∧
        merge record before = (left, none) ∧ record.kind.relationship? entry.name = some r ∧
        entry.kind ≠ r.target.name ∧ fault = .targetKind r.name r.target entry.kind := by
  constructor
  · intro h
    induction entries generalizing record with
    | nil => cases (Prod.mk.inj h).2
    | cons first rest ih =>
      -- Either the merge stops here, or it goes on from the record with this entry merged.
      cases hfirst : mergeEntry record first with
      | ok next =>
        have hmerge : ∀ entries, merge record (first :: entries) = merge next entries := fun _ => by
          rw [merge, hfirst]
        rw [hmerge] at h
        obtain ⟨before, entry, after, r, rfl, hbefore, hr, hkind, rfl⟩ := ih next h
        have hone : merge record [first] = (next, none) := hmerge []
        rw [kind_merge hone] at hr
        exact ⟨first :: before, entry, after, r, rfl, (hmerge before).trans hbefore, hr, hkind, rfl⟩
      | error own =>
        rw [merge, hfirst] at h
        obtain ⟨rfl, hfault⟩ := Prod.mk.inj h
        obtain rfl := Option.some.inj hfault
        cases hr : record.kind.relationship? first.name with
        | none => simp [mergeEntry, hr] at hfirst
        | some r =>
          by_cases hkind : first.kind = r.target.name
          · rw [mergeEntry_eq hr hkind] at hfirst
            cases hfirst
          · rw [mergeEntry_of_foreign hr hkind] at hfirst
            exact ⟨[], first, rest, r, rfl, rfl, hr, hkind, (Except.error.inj hfirst).symm⟩
  · rintro ⟨before, entry, after, r, rfl, hbefore, hr, hkind, rfl⟩
    rw [← kind_merge hbefore] at hr
    rw [merge_append hbefore, merge, mergeEntry_of_foreign hr hkind]

theorem exists_merge_fault_iff (record : Record) (entries : List Outstanding) :
    (∃ left fault, merge record entries = (left, some fault)) ↔
      ∃ entry ∈ entries, entry.Foreign record.kind := by
  constructor
  · rintro ⟨left, fault, h⟩
    obtain ⟨before, entry, after, r, rfl, _, hr, hkind, _⟩ := (merge_eq_fault_iff ..).mp h
    exact ⟨entry, by simp, r, hr, hkind⟩
  · rintro ⟨entry, hentry, hforeign⟩
    rcases hmerge : merge record entries with ⟨left, _ | fault⟩
    · have hdeclared := declared_of_merge hmerge entry hentry
      exact absurd hforeign ((Outstanding.declared_iff ..).mp hdeclared)
    · exact ⟨left, fault, rfl⟩

variable (found : Members (List Outstanding))

theorem mergeOwn_of_absent {record : Record}
    (h : ∀ id, record.id = some id → found.get? id = none) :
    mergeOwn found record = (record, none) := by
  have hnone : record.id >>= found.get? = none := by
    cases hid : record.id with
    | none => rfl
    | some id => exact h id hid
  rw [mergeOwn, hnone]
  rfl

theorem exists_mergeOwn_fault_iff (record : Record) :
    (∃ left fault, mergeOwn found record = (left, some fault)) ↔
      ∃ id entries, record.id = some id ∧ found.get? id = some entries ∧
        ∃ entry ∈ entries, entry.Foreign record.kind := by
  rw [mergeOwn, exists_merge_fault_iff]
  cases hid : record.id with
  | none => simp
  | some id =>
    cases hget : found.get? id with
    | none => simp [hget]
    | some entries => simp [hget]

/-- Merging several records fails with the first that fails: those before it are merged, and those
after it are as they were. -/
theorem mergeAll_eq_fault_iff (records left : List Record) (fault : Fault) :
    mergeAll found records = (left, some fault) ↔
      ∃ before record after merged own, records = before ++ record :: after ∧
        List.Forall₂ (fun held record => mergeOwn found held = (record, none)) before merged ∧
        mergeOwn found record = (own, some fault) ∧ left = merged ++ own :: after := by
  induction records generalizing left with
  | nil => simp [mergeAll]
  | cons first rest ih =>
    rcases hfirst : mergeOwn found first with ⟨own, _ | stop⟩
    · rw [mergeAll, hfirst]
      constructor
      · intro h
        obtain ⟨rfl, hfault⟩ := Prod.mk.inj h
        obtain ⟨before, record, after, merged, last, rfl, hbefore, hlast, heq⟩ :=
          (ih (mergeAll found rest).1).mp (Prod.ext rfl hfault)
        exact ⟨first :: before, record, after, own :: merged, last, rfl, .cons hfirst hbefore,
          hlast, by rw [heq]; rfl⟩
      · rintro ⟨before, record, after, merged, last, heq, hbefore, hlast, rfl⟩
        cases hbefore with
        | nil =>
          obtain ⟨rfl, rfl⟩ := List.cons.inj heq
          rw [hfirst] at hlast
          cases (Prod.mk.inj hlast).2
        | @cons _ other before merged hother hbefore =>
          obtain ⟨rfl, rfl⟩ := List.cons.inj heq
          obtain ⟨rfl, _⟩ := Prod.mk.inj (hfirst.symm.trans hother)
          have hrest := (ih _).mpr ⟨before, record, after, merged, last, rfl, hbefore, hlast, rfl⟩
          simp only [hrest, List.cons_append]
    · rw [mergeAll, hfirst]
      constructor
      · intro h
        obtain ⟨rfl, hfault⟩ := Prod.mk.inj h
        obtain rfl := Option.some.inj hfault
        exact ⟨[], first, rest, [], own, rfl, .nil, hfirst, rfl⟩
      · rintro ⟨before, record, after, merged, last, heq, hbefore, hlast, rfl⟩
        cases hbefore with
        | nil =>
          obtain ⟨rfl, rfl⟩ := List.cons.inj heq
          rw [hfirst] at hlast
          obtain ⟨rfl, hfault⟩ := Prod.mk.inj hlast
          rw [hfault]
          rfl
        | cons hother _ =>
          obtain ⟨rfl, rfl⟩ := List.cons.inj heq
          rw [hfirst] at hother
          cases (Prod.mk.inj hother).2

theorem exists_mergeAll_fault_iff (records : List Record) :
    (∃ left fault, mergeAll found records = (left, some fault)) ↔
      ∃ record ∈ records, ∃ left fault, mergeOwn found record = (left, some fault) := by
  constructor
  · rintro ⟨left, fault, h⟩
    obtain ⟨before, record, after, _, own, rfl, _, hown, _⟩ := (mergeAll_eq_fault_iff ..).mp h
    exact ⟨record, by simp, own, fault, hown⟩
  · rintro ⟨record, hmem, own, fault, hown⟩
    rcases hall : mergeAll found records with ⟨left, _ | stop⟩
    · obtain ⟨merged, _, hmerged⟩ :=
        exists_mem_of_forall₂ ((mergeAll_eq_ok_iff ..).mp hall) hmem
      rw [hown] at hmerged
      cases (Prod.mk.inj hmerged).2
    · exact ⟨left, stop, rfl⟩

/-- A record is as it was where its own merge does not change it. -/
theorem getElem?_mergeAll_of_absent {records : List Record} {i : Nat} {record : Record}
    (hget : records[i]? = some record)
    (h : ∀ id, record.id = some id → found.get? id = none) :
    (mergeAll found records).1[i]? = some record := by
  induction records generalizing i with
  | nil => simp at hget
  | cons first rest ih =>
    rcases hfirst : mergeOwn found first with ⟨own, _ | stop⟩
    · rw [mergeAll, hfirst]
      cases i with
      | zero =>
        obtain rfl : first = record := by simpa using hget
        rw [mergeOwn_of_absent found h] at hfirst
        simp [(Prod.mk.inj hfirst).1]
      | succ i => exact ih hget
    · rw [mergeAll, hfirst]
      cases i with
      | zero =>
        obtain rfl : first = record := by simpa using hget
        rw [mergeOwn_of_absent found h] at hfirst
        cases (Prod.mk.inj hfirst).2
      | succ i => exact hget

/-- When merging fails and what it leaves. The merge of a record fails if an entry is foreign to its
kind, with the first such entry, and leaves the record as the entries before it do. The merge of
several records fails if the own entries of one are foreign: the records before the first such one
are merged, this one is left by its own merge, and the others are as they were. A record without an
id or without entries is never changed. -/
theorem merging_stops (records : List Record) :
    (∀ record entries,
      ((∃ left fault, merge record entries = (left, some fault)) ↔
        ∃ entry ∈ entries, entry.Foreign record.kind) ∧
      ∀ left fault, merge record entries = (left, some fault) ↔
        ∃ before entry after r, entries = before ++ entry :: after ∧
          (∀ earlier ∈ before, ¬ earlier.Foreign record.kind) ∧
          merge record before = (left, none) ∧
          record.kind.relationship? entry.name = some r ∧ entry.kind ≠ r.target.name ∧
          fault = .targetKind r.name r.target entry.kind) ∧
      ((∃ left fault, mergeAll found records = (left, some fault)) ↔
        ∃ record ∈ records, ∃ id entries, record.id = some id ∧ found.get? id = some entries ∧
          ∃ entry ∈ entries, entry.Foreign record.kind) ∧
      (∀ left fault, mergeAll found records = (left, some fault) ↔
        ∃ before record after merged own, records = before ++ record :: after ∧
          List.Forall₂ (fun held record => mergeOwn found held = (record, none)) before merged ∧
          mergeOwn found record = (own, some fault) ∧ left = merged ++ own :: after) ∧
      ∀ (i : Nat) (record : Record), records[i]? = some record →
        (∀ id, record.id = some id → found.get? id = none) →
          (mergeAll found records).1[i]? = some record := by
  refine ⟨fun record entries => ⟨exists_merge_fault_iff record entries, fun left fault => ?_⟩, ?_,
    mergeAll_eq_fault_iff found records, fun i record => getElem?_mergeAll_of_absent found⟩
  · rw [merge_eq_fault_iff]
    constructor
    · rintro ⟨before, entry, after, r, heq, hbefore, hstop⟩
      have hdeclared := declared_of_merge hbefore
      exact ⟨before, entry, after, r, heq,
        fun earlier hmem => (Outstanding.declared_iff ..).mp (hdeclared earlier hmem), hbefore,
        hstop⟩
    · rintro ⟨before, entry, after, r, heq, _, hbefore, hstop⟩
      exact ⟨before, entry, after, r, heq, hbefore, hstop⟩
  · rw [exists_mergeAll_fault_iff]
    exact exists_congr fun record => and_congr_right fun _ => exists_mergeOwn_fault_iff found record

/-- Four grants, of which the last has no id. -/
def someGrants : List Record :=
  [.stub .grant "1", .stub .grant "2", .stub .grant "3", .blank .grant]

/-- The entries of the second one name a funder as investigator, though without an id. -/
def grantEntries : Members (List Outstanding) :=
  [("1", [⟨"pi", "user", ["7"], false⟩]),
    ("2", [⟨"coPis", "user", ["3"], true⟩, ⟨"pi", "funder", [], false⟩,
      ⟨"coPis", "user", ["4"], true⟩]),
    ("3", [⟨"pi", "user", ["8"], false⟩])]

theorem merging_stops_secondGrant : ∃ left,
    mergeAll grantEntries someGrants = (left, some (.targetKind "pi" .user "funder")) ∧
      left.map (Record.targetIds · .grantPi) = [[some "7"], [], [], []] ∧
      left.map (Record.targetIds · .grantCoPis) = [[], [some "3"], [], []] ∧
      left[3]? = some (.blank .grant) := by
  have hmerge : mergeAll grantEntries someGrants =
      ((mergeAll grantEntries someGrants).1, some (.targetKind "pi" .user "funder")) :=
    Prod.ext rfl (by decide +kernel)
  have hlast := (merging_stops grantEntries someGrants).2.2.2 3 (.blank .grant) rfl
    fun _ hid => by cases hid
  exact ⟨_, hmerge, by decide +kernel, by decide +kernel, hlast⟩

end ResearchRecords.Document
