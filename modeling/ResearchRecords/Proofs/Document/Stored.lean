import ResearchRecords.Proofs.Document.Merging
import ResearchRecords.Proofs.Document.WriteRead

/-!
Records as they are read from responses. Every one of them keeps the declarations of its
relationships at every depth, and it has an id, as has each of its targets. So its own document,
read again, gives the record with a stub in the place of each target.
-/
namespace ResearchRecords

/-- A record with an id, whose targets have ids, too, and keep the declarations. -/
structure Record.Stored (record : Record) : Prop where
  wellFormed : record.WellFormed
  id : ∃ id, id ≠ "" ∧ record.id = some id
  targets : ∀ r, ∀ target ∈ record.targets r, ∃ id, id ≠ "" ∧ target.id = some id

/-- The record with a stub in the place of each target. -/
def Record.stubbed (record : Record) : Record :=
  { record with
    targets := fun r => (record.targets r).map fun target =>
      (Record.blank target.kind).withId target.id }

namespace Document

open Json (Members)
open Results

/-- The targets of a record that is built were named under a declared relationship, and built. -/
theorem exists_hydrates_of_mem_targets {document : Document} {kind : Kind} {resource : Resource}
    {record : Record} (h : hydrate document kind resource = .ok record) {r : Relationship}
    {target : Record} (htarget : target ∈ record.targets r) :
    r.source = kind ∧ ∃ t ∈ (resource.linkage r.name).targets, Hydrates document r t target := by
  obtain ⟨_, targets, rfl, _, hlinked, hforeign⟩ := (hydrate_eq_ok_iff ..).mp h
  change target ∈ targets r at htarget
  by_cases hr : r.source = kind
  · obtain ⟨records, hall, heq⟩ := hlinked r hr
    rw [heq] at htarget
    obtain ⟨t, ht, hhydrates⟩ :=
      exists_mem_of_forall₂ hall.2.flip (Relationship.mem_of_mem_limit htarget)
    exact ⟨hr, t, List.mem_of_mem_filter ht, hhydrates⟩
  · rw [hforeign r hr] at htarget
    exact absurd htarget List.not_mem_nil

/-- A record that is built keeps the declarations at every depth. -/
theorem wellFormed_of_hydrate {document : Document} {kind : Kind} {resource : Resource}
    {record : Record} (h : hydrate document kind resource = .ok record) : record.WellFormed := by
  -- The kinds of the targets fall in rank.
  induction hrank : kind.rank using Nat.strong_induction_on generalizing kind resource record with
  | _ n ih =>
    have hbuilt : ∀ r, ∀ target ∈ record.targets r, r.source = kind ∧
        ∃ t ∈ (resource.linkage r.name).targets, Hydrates document r t target :=
      fun _ _ htarget => exists_hydrates_of_mem_targets h htarget
    obtain ⟨_, targets, rfl, _, hlinked, hforeign⟩ := (hydrate_eq_ok_iff ..).mp h
    refine .intro _ hforeign ?_ ?_ ?_
    · intro r hone
      by_cases hr : r.source = kind
      · obtain ⟨records, _, heq⟩ := hlinked r hr
        exact (congrArg List.length heq).trans_le (Relationship.length_limit_le hone records)
      · simp [hforeign r hr]
    · intro r target htarget
      obtain ⟨_, _, _, _, _, hhydrate⟩ := hbuilt r target htarget
      exact hydrate_kind hhydrate
    · intro r target htarget
      obtain ⟨hr, _, _, _, _, hhydrate⟩ := hbuilt r target htarget
      exact ih _ (hrank ▸ hr ▸ r.rank_target_lt) hhydrate rfl

theorem stored_of_primaryRecord {body : Bytes} {document : Document}
    (hparse : parse body = .ok document) {resource : Resource}
    (hresource : resource ∈ document.primary.resources) {kind : Kind} {record : Record}
    (h : primaryRecord document kind resource = .ok record) : record.Stored := by
  obtain ⟨id, hne, _, hid⟩ := id_of_primaryRecord h
  obtain ⟨_, _, hhydrate⟩ := (primaryRecord_eq_ok ..).mp h
  refine ⟨wellFormed_of_hydrate hhydrate, ⟨id, hne, hid⟩, ?_⟩
  intro r target htarget
  obtain ⟨_, t, ht, hhydrates⟩ := exists_hydrates_of_mem_targets hhydrate htarget
  exact ⟨t.2, (ne_empty_of_mem_resource hparse hresource ht).2, id_of_hydrates hhydrates⟩

theorem Outstanding.exists_target_of_mem_ids {included : List Target} {m : String × Linkage}
    {entry : Outstanding} (h : outstanding? included m = some entry) {id : String}
    (hid : id ∈ entry.ids) : ∃ target ∈ m.2.targets, target.2 = id := by
  obtain ⟨_, _, rfl⟩ := Option.map_eq_some_iff.mp h
  obtain ⟨target, htarget, rfl⟩ := List.mem_map.mp hid
  exact ⟨target, List.mem_of_mem_filter htarget, rfl⟩

theorem ne_empty_of_outstanding {kind : Kind} {body : Bytes} {records : List Record}
    (hdecode : decodeMany kind body = .ok records) {found : Members (List Outstanding)}
    (hfound : outstanding body = .ok found) (id : String) :
    ∀ entry ∈ (found.get? id).getD [], ∀ id ∈ entry.ids, id ≠ "" := by
  intro entry hentry id hid
  obtain ⟨document, resource, _, _, hparse, hresource, _, heq⟩ :=
    exists_linkage_of_entry hdecode hfound hentry
  obtain ⟨target, htarget, rfl⟩ := Outstanding.exists_target_of_mem_ids heq hid
  exact (ne_empty_of_mem_resource hparse hresource htarget).2

theorem mem_missingStubs {record : Record} {r : Relationship} {ids : List String} {stub : Record}
    (h : stub ∈ missingStubs record r ids) : ∃ id ∈ ids, stub = .stub r.target id := by
  unfold missingStubs at h
  split at h
  · split at h
    · obtain ⟨id, hid, rfl⟩ := List.mem_map.mp h
      exact ⟨id, List.mem_of_mem_take hid, rfl⟩
    · exact absurd h List.not_mem_nil
  · obtain ⟨id, hid, rfl⟩ := List.mem_map.mp h
    exact ⟨id, List.mem_of_mem_filter hid, rfl⟩

/-- A relationship can be filled with stubs that have ids. -/
theorem stored_filled {record : Record} (h : record.Stored) {r : Relationship}
    (hr : r.source = record.kind) {ids : List String} (hids : ∀ id ∈ ids, id ≠ "") :
    (record.setTargets r (filled record r ids)).Stored := by
  obtain ⟨_, _, hsingle, hkinds, hnested⟩ := h.wellFormed
  refine ⟨h.wellFormed.setTargets hr
    (fun hone => Relationship.length_joined_le hone (hsingle r hone) _) ?_, h.id, ?_⟩
  · intro target htarget
    rcases Relationship.mem_of_mem_joined htarget with hheld | hadded
    · exact ⟨hkinds r target hheld, hnested r target hheld⟩
    · obtain ⟨id, _, rfl⟩ := mem_missingStubs hadded
      exact ⟨rfl, Record.wellFormed_of_targets_eq_nil fun _ => rfl⟩
  · intro s target htarget
    rw [Record.setTargets_targets] at htarget
    split at htarget
    · rcases Relationship.mem_of_mem_joined htarget with hheld | hadded
      · exact h.targets r target hheld
      · obtain ⟨id, hid, rfl⟩ := mem_missingStubs hadded
        exact ⟨id, hids id hid, rfl⟩
    · exact h.targets s target htarget

theorem stored_of_mergeEntry {record next : Record} {entry : Outstanding}
    (h : mergeEntry record entry = .ok next) (hrecord : record.Stored)
    (hids : ∀ id ∈ entry.ids, id ≠ "") : next.kind = record.kind ∧ next.Stored := by
  unfold mergeEntry at h
  split at h
  · exact Except.ok.inj h ▸ ⟨rfl, hrecord⟩
  · next r hr =>
    split at h
    · cases h
    · rw [linkTargets_eq _ _ (kind_of_missingStubs _ _ _)] at h
      obtain rfl := Except.ok.inj h
      exact ⟨rfl, stored_filled hrecord (Relationship.eq_of_relationship? hr).1 hids⟩

theorem stored_of_merge {record merged : Record} {entries : List Outstanding}
    (h : merge record entries = (merged, none)) (hrecord : record.Stored)
    (hids : ∀ entry ∈ entries, ∀ id ∈ entry.ids, id ≠ "") :
    merged.kind = record.kind ∧ merged.Stored := by
  induction entries generalizing record with
  | nil =>
    obtain ⟨rfl, _⟩ := Prod.mk.inj h
    exact ⟨rfl, hrecord⟩
  | cons entry rest ih =>
    obtain ⟨hfirst, hrest⟩ := List.forall_mem_cons.mp hids
    rw [merge] at h
    split at h
    · next filled hentry =>
      obtain ⟨hkind, hstored⟩ := stored_of_mergeEntry hentry hrecord hfirst
      obtain ⟨hsame, hmerged⟩ := ih h hstored hrest
      exact ⟨hsame.trans hkind, hmerged⟩
    · obtain ⟨_, hfault⟩ := Prod.mk.inj h
      cases hfault

/-- The records of a response are of the kind asked for, and they and their targets have ids. -/
theorem stored_of_readMany {kind : Kind} {body : Bytes} {records : List Record}
    (h : readMany kind body = .ok records) :
    ∀ record ∈ records, record.kind = kind ∧ record.Stored := by
  obtain ⟨helds, found, hdecode, hfound, hmerge⟩ := (readMany_eq_ok ..).mp h
  obtain ⟨document, hparse, hhelds⟩ := (decodeMany_eq_ok ..).mp hdecode
  intro record hmem
  obtain ⟨held, hheld, hown⟩ :=
    exists_mem_of_forall₂ ((mergeAll_eq_ok_iff ..).mp hmerge).flip hmem
  obtain ⟨resource, hresource, hrecord⟩ := exists_mem_of_forall₂ hhelds.flip hheld
  have hstored := stored_of_primaryRecord hparse hresource hrecord
  obtain ⟨id, _, hid⟩ := hstored.id
  rw [mergeOwn, hid] at hown
  obtain ⟨hkind, hmerged⟩ :=
    stored_of_merge hown hstored (ne_empty_of_outstanding hdecode hfound id)
  exact ⟨hkind.trans (kind_of_decodeMany hdecode held hheld), hmerged⟩

/-- There is one record for each primary resource, in the order of the document. -/
theorem ids_of_readMany {kind : Kind} {body : Bytes} {records : List Record}
    (h : readMany kind body = .ok records) : ∃ document, parse body = .ok document ∧
      records.map Record.id = document.primary.resources.map Resource.id := by
  obtain ⟨helds, found, hdecode, _, hmerge⟩ := (readMany_eq_ok ..).mp h
  obtain ⟨document, hparse, hhelds⟩ := (decodeMany_eq_ok ..).mp hdecode
  refine ⟨document, hparse, ?_⟩
  have hids := forall₂_comp hhelds ((mergeAll_eq_ok_iff ..).mp hmerge)
  rw [← List.forall₂_eq_eq_eq, List.forall₂_map_left_iff, List.forall₂_map_right_iff]
  apply hids.flip.imp
  rintro record resource ⟨held, hheld, hown⟩
  obtain ⟨id, _, hid, hsame⟩ := id_of_primaryRecord hheld
  have hmerged := id_merge held ((held.id >>= found.get?).getD [])
  rw [mergeOwn] at hown
  rw [hown] at hmerged
  exact (hmerged.trans hsame).trans hid.symm

/-- The document of such a record reads back as the record with its targets replaced by stubs. -/
theorem readOne_of_stored (form : Form) {record : Record} (h : record.Stored) :
    readOne record.kind (ofRecord form record).toBytes = .ok (some record.stubbed) := by
  obtain ⟨id, hne, hid⟩ := h.id
  obtain ⟨_, _, _, hkinds, _⟩ := h.wellFormed
  rw [readOne_written form record h.wellFormed hid hne, Record.withStubs, Record.stubbed]
  have hstubs : ∀ r, (record.shownIds r).map (Record.stub r.target) =
      (record.targets r).map fun target => (Record.blank target.kind).withId target.id := by
    intro r
    have hkind := hkinds r
    have hids := h.targets r
    rw [Record.shownIds, Record.targetIds]
    generalize record.targets r = targets at hkind hids ⊢
    induction targets with
    | nil => rfl
    | cons target rest ih =>
      obtain ⟨hfirst, hrest⟩ := List.forall_mem_cons.mp hkind
      obtain ⟨⟨id, hne, hid⟩, hids⟩ := List.forall_mem_cons.mp hids
      rw [List.map_cons, hid, List.reduceOption_cons_of_some,
        List.filter_cons_of_pos (by simpa using hne), List.map_cons, List.map_cons,
        ih hrest hids, hfirst, hid]
      rfl
  simp only [hstubs]

end Document

end ResearchRecords
