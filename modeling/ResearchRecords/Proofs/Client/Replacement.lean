import ResearchRecords.Proofs.Client.Reading
import ResearchRecords.Proofs.Client.Repository
import ResearchRecords.Proofs.Document.WriteRead

/-!
Replacing a stored record. However often a record is updated, what is stored is the document of the
last one sent: the document of a new record is brief, and every later one replaces all of the one
before it. Fetching then gives the last record, with stubs for its targets.
-/
namespace ResearchRecords

open Document

/-- Where every target has an id, none is left out. -/
theorem Record.withStubs_eq {record : Record} (h : record.Identified) :
    record.withStubs = { record with
      targets := fun r =>
        (record.targets r).map fun target => .stub r.target (target.id.getD "") } := by
  have hids : ∀ r, record.shownIds r = (record.targets r).map fun target => target.id.getD "" := by
    intro r
    have hall := h r
    rw [Record.shownIds, Record.targetIds]
    generalize record.targets r = targets at hall ⊢
    induction targets with
    | nil => rfl
    | cons target rest ih =>
      obtain ⟨⟨id, hid, hne⟩, hrest⟩ := List.forall_mem_cons.mp hall
      rw [List.map_cons, List.map_cons, hid, List.reduceOption_cons_of_some,
        List.filter_cons_of_pos (by simpa using hne), ih hrest]
      rfl
  rw [Record.withStubs]
  simp only [hids, List.map_map]
  rfl

namespace Client

/-- Sends updates one after the other, up to the first that fails. -/
def updateAll {σ : Type} (client : Client) (transport : Transport σ) (state : σ) :
    List Record → Except ClientFault Unit × σ
  | [] => (.ok (), state)
  | record :: rest =>
    match (client.update record).run transport state with
    | (.ok _, state) => client.updateAll transport state rest
    | (.error fault, state) => (.error fault, state)

/-- After any updates under one id, the stored document is that of the last record. -/
theorem updateAll_eq (client : Client) (repository : Repository) {id : String} (hne : id ≠ "")
    {updates : List Record} (form : Form) {before : Record} (hbefore : before.id = some id)
    (hupdates : ∀ record ∈ updates,
      record.kind = before.kind ∧ record.id = some id ∧ record.Identified) :
    ∃ last, client.updateAll repository.transport (some (resourceMembers form before)) updates =
      (.ok (), some (resourceMembers last (updates.getLastD before))) := by
  induction updates generalizing form before with
  | nil => exact ⟨form, rfl⟩
  | cons record rest ih =>
    obtain ⟨⟨hkind, hid, hidentified⟩, hrest⟩ := List.forall_mem_cons.mp hupdates
    have hstep :=
      repository.run_update client form hkind.symm hbefore hid hne hidentified
    rw [List.getLastD_cons, updateAll, hstep]
    refine ih .replacing hid fun other hother => ?_
    obtain ⟨hother, hrest⟩ := hrest other hother
    exact ⟨hother.trans hkind.symm, hrest⟩

/-- A record that is created and then updated any number of times, in a repository in any state, is
fetched as the last update has it: with its attributes, and with the stubs of its targets. -/
theorem get_updateAll (client : Client) (repository : Repository) (start : Stored) (first : Record)
    (hnew : first.id = none) (hfirst : first.WellFormed) (hidentified : first.Identified) :
    ∃ id stored, id ≠ "" ∧
      (client.create first).run repository.transport start =
        (.ok (first.withId (some id)), stored) ∧
      ∀ updates : List Record,
        (∀ record ∈ updates, record.kind = first.kind ∧ record.id = some id ∧
          record.WellFormed ∧ record.Identified) →
        ∀ including, ∃ final,
          client.updateAll repository.transport stored updates = (.ok (), final) ∧
          ((client.get first.kind id including).run repository.transport final).1 =
            let last := updates.getLastD (first.withId (some id))
            .ok (some { last with
              targets := fun r =>
                (last.targets r).map fun target => .stub r.target (target.id.getD "") }) := by
  obtain ⟨id, hne, hcreate⟩ := repository.run_create client hnew start
  refine ⟨id, _, hne, hcreate, fun updates hupdates including => ?_⟩
  have hid : (first.withId (some id)).id = some id := rfl
  obtain ⟨form, hstored⟩ := updateAll_eq client repository hne .brief hid
    fun record hrecord => by
      obtain ⟨hkind, hid, _, hidentified⟩ := hupdates record hrecord
      exact ⟨hkind, hid, hidentified⟩
  refine ⟨_, hstored, ?_⟩
  obtain ⟨hkind, hid, hwellFormed, hidentified⟩ :
      (updates.getLastD (first.withId (some id))).kind = first.kind ∧
        (updates.getLastD (first.withId (some id))).id = some id ∧
        (updates.getLastD (first.withId (some id))).WellFormed ∧
        (updates.getLastD (first.withId (some id))).Identified := by
    have hlast : updates.getLastD (first.withId (some id)) ∈ first.withId (some id) :: updates :=
      List.getLastD_mem_cons
    rcases List.mem_cons.mp hlast with h | h
    · rw [h]
      exact ⟨rfl, rfl, hfirst.withId (some id), hidentified⟩
    · exact hupdates _ h
  rw [repository.run_get client form _ first.kind hne including, ← hkind,
    readOne_written form _ hwellFormed hid hne, Record.withStubs_eq hidentified]
  rfl

/-- Says nothing when a patch has been stored. -/
def quietRepository : Repository where
  assign _ _ := "9"
  assign_ne _ _ := by decide
  patched _ := ⟨204, []⟩
  patched_success _ := rfl

/-- A policy that is not stored yet. -/
def draftPolicy (repositories : List String) : Record :=
  let policy : Record :=
    ⟨.policy, none, (some "Deposit on publication", none, none, some "Open access", ()),
      fun _ => []⟩
  policy.setTargets .policyRepositories (repositories.map (.stub .repository))

theorem draftPolicy_wellFormed (repositories : List String) :
    (draftPolicy repositories).WellFormed := by
  refine (Record.wellFormed_of_targets_eq_nil fun _ => rfl).setTargets rfl (fun h => nomatch h) ?_
  intro target htarget
  obtain ⟨id, _, rfl⟩ := List.mem_map.mp htarget
  exact ⟨rfl, Record.wellFormed_of_targets_eq_nil fun _ => rfl⟩

theorem draftPolicy_identified {repositories : List String} (h : "" ∉ repositories) :
    (draftPolicy repositories).Identified := by
  intro r target htarget
  rw [draftPolicy, Record.setTargets_targets] at htarget
  split at htarget
  · obtain ⟨id, hid, rfl⟩ := List.mem_map.mp htarget
    exact ⟨id, rfl, fun hempty => h (hempty ▸ hid)⟩
  · exact absurd htarget List.not_mem_nil

/-- Two updates: the first drops a repository, the second has nothing but the id. -/
theorem get_updateAll_draftPolicy : ∃ id stored final,
    (loopback.create (draftPolicy ["7", "8"])).run quietRepository.transport none =
        (.ok ((draftPolicy ["7", "8"]).withId (some id)), stored) ∧
      loopback.updateAll quietRepository.transport stored
        [(draftPolicy ["8"]).withId (some id), .stub .policy id] = (.ok (), final) ∧
      ((loopback.get .policy id []).run quietRepository.transport final).1 =
        .ok (some (.stub .policy id)) := by
  obtain ⟨id, stored, _, hcreate, h⟩ := get_updateAll loopback quietRepository none
    (draftPolicy ["7", "8"]) rfl (draftPolicy_wellFormed _) (draftPolicy_identified (by decide))
  have hupdates : ∀ record ∈ [(draftPolicy ["8"]).withId (some id), .stub .policy id],
      record.kind = .policy ∧ record.id = some id ∧ record.WellFormed ∧ record.Identified := by
    intro record hrecord
    rcases List.mem_pair.mp hrecord with rfl | rfl
    · exact ⟨rfl, rfl, (draftPolicy_wellFormed _).withId _, draftPolicy_identified (by decide)⟩
    · exact ⟨rfl, rfl, Record.wellFormed_of_targets_eq_nil fun _ => rfl,
        fun r target htarget => absurd htarget List.not_mem_nil⟩
  obtain ⟨final, hfinal, hread⟩ := h _ hupdates []
  exact ⟨id, stored, final, hcreate, hfinal, hread⟩

end Client

end ResearchRecords
