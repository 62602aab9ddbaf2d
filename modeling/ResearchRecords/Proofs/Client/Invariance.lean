import ResearchRecords.Proofs.Client.Discipline
import ResearchRecords.Proofs.Document.Invariance
import ResearchRecords.Proofs.Json.Written

/-!
Responses in another order. What an operation makes of a response is what it reads from the body, if
it reads the body at all. So responses that differ in the order of members and of what is included
give the same records, whether they are fetched alone or as a page.
-/
namespace ResearchRecords

open Json (Value Members Node Reordered Permuted)
open Document (Rearranges SamePart decodeOne decodeMany outstanding)
open Results

/-- An operation gives the same for two bodies if it reads the same from both. -/
theorem Operation.run_eq_ok_of_read (operation : Operation) {client : Client} {body body' : Bytes}
    (hread : ∀ result, operation.read body = .ok result → operation.read body' = .ok result)
    {status : Nat} {result : operation.Result}
    (h : ((operation.call client).run (.constant ⟨status, body⟩) ()).1 = .ok result) :
    ((operation.call client).run (.constant ⟨status, body'⟩) ()).1 = .ok result := by
  rw [operation.call_eq client] at h ⊢
  cases hrequest : operation.request client with
  | error fault =>
    rw [hrequest, Client.run_attempt_error] at h
    cases h
  | ok request =>
    rw [hrequest, Client.run_attempt_ok] at h
    rw [Client.run_attempt_ok]
    simp only [Transport.constant, judge] at h ⊢
    by_cases hsuccess : Client.isSuccess status = true
    · rw [if_pos hsuccess] at h ⊢
      exact (mapError_eq_ok ..).mpr (hread result ((mapError_eq_ok ..).mp h))
    · rw [if_neg hsuccess] at h ⊢
      cases habsent : if status = 404 then operation.absent? else none with
      | none =>
        rw [habsent] at h
        cases h
      | some absent =>
        rw [habsent] at h
        exact h

namespace Document.Rearranges

variable {body body' : Bytes} (h : Rearranges body body')

include h

theorem pageFrom_eq_ok {kind : Kind} {page : Page} (hread : Operation.pageFrom kind body = .ok page) :
    Operation.pageFrom kind body' = .ok page := by
  simp only [Operation.pageFrom, bind_eq_ok] at hread ⊢
  obtain ⟨records, hrecords, total, htotal, hpage⟩ := hread
  exact ⟨records, h.readMany_eq_ok hrecords, total, h.total_eq_ok htotal, hpage⟩

theorem get_eq_ok {client : Client} {kind : Kind} {id : String} {including : List String}
    {status : Nat} {record? : Option Record}
    (hget : ((client.get kind id including).run (.constant ⟨status, body⟩) ()).1 = .ok record?) :
    ((client.get kind id including).run (.constant ⟨status, body'⟩) ()).1 = .ok record? :=
  Operation.run_eq_ok_of_read (.get kind id including) (fun _ => h.readOne_eq_ok) hget

theorem select_eq_ok {client : Client} {selector : Selector} {status : Nat} {page : Page}
    (hselect : ((client.select selector).run (.constant ⟨status, body⟩) ()).1 = .ok page) :
    ((client.select selector).run (.constant ⟨status, body'⟩) ()).1 = .ok page :=
  Operation.run_eq_ok_of_read (.select selector) (fun _ => h.pageFrom_eq_ok) hselect

end Document.Rearranges

namespace Client

/-- The order of a response does not matter where JSON:API says so. Two responses that differ in the
order of the members of objects and of the included resources, of which no two have the same type and
id, decode to the same records, have the same targets outstanding, and give the same when they answer
a fetch of one record or of a page. If one of them gives a result, so does the other. -/
theorem rearranged_responses {body body' : Bytes} (h : Rearranges body body') :
    (∀ kind record?, decodeOne kind body = .ok record? ↔ decodeOne kind body' = .ok record?) ∧
      (∀ kind records, decodeMany kind body = .ok records ↔ decodeMany kind body' = .ok records) ∧
      (∀ found, outstanding body = .ok found ↔ outstanding body' = .ok found) ∧
      ∀ (client : Client) (status : Nat),
        (∀ kind id including record?,
          ((client.get kind id including).run (.constant ⟨status, body⟩) ()).1 = .ok record? ↔
            ((client.get kind id including).run (.constant ⟨status, body'⟩) ()).1 = .ok record?) ∧
        ∀ selector page,
          ((client.select selector).run (.constant ⟨status, body⟩) ()).1 = .ok page ↔
            ((client.select selector).run (.constant ⟨status, body'⟩) ()).1 = .ok page := by
  refine ⟨fun _ _ => ⟨h.decodeOne_eq_ok, h.symm.decodeOne_eq_ok⟩,
    fun _ _ => ⟨h.decodeMany_eq_ok, h.symm.decodeMany_eq_ok⟩,
    fun _ => ⟨h.outstanding_eq_ok, h.symm.outstanding_eq_ok⟩, fun _ _ => ⟨?_, ?_⟩⟩
  · exact fun _ _ _ _ => ⟨h.get_eq_ok, h.symm.get_eq_ok⟩
  · exact fun _ _ => ⟨h.select_eq_ok, h.symm.select_eq_ok⟩

end Client

namespace Json

variable {room : Nat}

theorem Value.Plain.reordered {v : Value} (h : v.Plain room) : Reordered v.tree v.tree := by
  induction h with
  | null => exact .null
  | bool room b => exact .bool b
  | string room s => exact .text rfl
  | array room items _ ih =>
    rw [Value.tree, Value.treeItems_eq]
    refine .list ?_
    rw [List.forall₂_map_left_iff, List.forall₂_map_right_iff]
    exact List.forall₂_same.mpr ih
  | object room members _ ih =>
    rw [Value.tree, Value.treeMembers_eq]
    refine .of_matched (.of_forall₂ ?_)
    rw [List.forall₂_map_left_iff, List.forall₂_map_right_iff]
    exact List.forall₂_same.mpr fun m hm => ⟨rfl, ih m hm⟩

theorem reordered_of_perm {members members' : Members Value}
    (hplain : ∀ m ∈ members, m.2.Plain room) (hperm : members.Perm members') :
    Reordered (Value.object members).tree (Value.object members').tree := by
  rw [Value.tree, Value.tree, Value.treeMembers_eq, Value.treeMembers_eq]
  exact .of_matched (Matched.map (fun _ _ h => h)
    (Matched.of_perm (fun m hm => ⟨rfl, (hplain m hm).reordered⟩) hperm))

theorem permuted_of_perm {items items' : List Value} (hplain : ∀ v ∈ items, v.Plain room)
    (hperm : items.Perm items') : Permuted (Value.array items).tree (Value.array items').tree := by
  refine ⟨_, _, rfl, rfl, ?_⟩
  rw [Value.treeItems_eq, Value.treeItems_eq]
  exact Matched.map (fun _ _ h => h)
    (Matched.of_perm (fun v hv => (hplain v hv).reordered) hperm)

end Json

namespace Client

def funderValue (id : String) : Value := .object [("id", .string id), ("type", .string "funder")]

def linkedTo (name id : String) : String × Value := (name, .object [("data", funderValue id)])

/-- A grant with two funders. -/
def fundedMembers : Members Value :=
  [("id", .string "1"), ("type", .string "grant"), ("relationships",
    .object [linkedTo "primaryFunder" "5", linkedTo "directFunder" "6"])]

/-- The funders of the grant, and one more. -/
def includedFunders : List Value := [funderValue "5", funderValue "6", funderValue "7"]

def fundersLast : Value :=
  .object [("data", .object fundedMembers), ("included", .array includedFunders)]

/-- The same, with all of it in another order. -/
def fundersFirst : Value :=
  .object [("included", .array includedFunders.reverse), ("data", .object fundedMembers.reverse)]

theorem sameUpToOrder_funders : Document.SameUpToOrder fundersLast.tree fundersFirst.tree := by
  have hmembers : ∀ m ∈ fundedMembers, m.2.Plain Node.maxDepth := by
    simp [fundedMembers, linkedTo, funderValue, Node.maxDepth]
  have hitems : ∀ v ∈ includedFunders, v.Plain Node.maxDepth := by
    simp [includedFunders, funderValue, Node.maxDepth]
  have hdata : SamePart (Json.Writer.textPieces "data", (Value.object fundedMembers).tree)
      (Json.Writer.textPieces "data", (Value.object fundedMembers.reverse).tree) :=
    ⟨rfl, .inl (Json.reordered_of_perm hmembers (List.reverse_perm _).symm)⟩
  have hincluded : SamePart (Json.Writer.textPieces "included", (Value.array includedFunders).tree)
      (Json.Writer.textPieces "included", (Value.array includedFunders.reverse).tree) :=
    ⟨rfl, .inr ⟨Json.decodePieces_textPieces "included",
      Json.permuted_of_perm hitems (List.reverse_perm _).symm⟩⟩
  exact .parts ⟨_, .cons hdata (.cons hincluded .nil), .swap _ _ _⟩

theorem rearranges_funders : Rearranges fundersLast.toBytes fundersFirst.toBytes := by
  have hplain : fundersLast.Plain Node.maxDepth := by
    simp [fundersLast, fundedMembers, includedFunders, linkedTo, funderValue, Node.maxDepth]
  have hplain' : fundersFirst.Plain Node.maxDepth := by
    simp [fundersFirst, fundedMembers, includedFunders, linkedTo, funderValue, Node.maxDepth]
  have hroot : Json.root fundersLast.toBytes = fundersLast.tree :=
    congrArg Prod.fst (Json.ofTokens_toBytes hplain)
  have hroot' : Json.root fundersFirst.toBytes = fundersFirst.tree :=
    congrArg Prod.fst (Json.ofTokens_toBytes hplain')
  have houtline : (Json.root fundersLast.toBytes).outline = fundersLast := by
    rw [hroot, Node.outline_of_value _ (Node.value_tree hplain)]
  refine ⟨congrArg Prod.snd (Json.ofTokens_toBytes hplain),
    congrArg Prod.snd (Json.ofTokens_toBytes hplain'), ?_, ?_, ?_⟩
  · rw [hroot, hroot']
    exact sameUpToOrder_funders
  · rw [houtline]
    simp [fundersLast, fundedMembers, includedFunders, linkedTo, funderValue, Members.names]
  · rw [houtline]
    decide

/-- Fetching the grant from either response. -/
theorem rearranged_responses_funders : ∃ record,
    ((loopback.get .grant "1" []).run (.constant ⟨200, fundersLast.toBytes⟩) ()).1 =
        .ok (some record) ∧
      ((loopback.get .grant "1" []).run (.constant ⟨200, fundersFirst.toBytes⟩) ()).1 =
        .ok (some record) := by
  have hsome : ((loopback.get .grant "1" []).run
      (.constant ⟨200, fundersLast.toBytes⟩) ()).1.toOption.join.isSome = true := by decide +kernel
  obtain ⟨record, hrecord⟩ := Option.isSome_iff_exists.mp hsome
  have hget := (toOption_join_eq_some ..).mp hrecord
  obtain ⟨_, _, _, hclient⟩ := rearranged_responses rearranges_funders
  exact ⟨record, hget, ((hclient loopback 200).1 .grant "1" [] (some record)).mp hget⟩

end Client

end ResearchRecords
