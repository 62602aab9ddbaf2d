import ResearchRecords.Proofs.Document.Acceptance

/-!
The total in a response. It stands in a record within another, and each of the three may be missing
or null. A response has a total that can be read exactly if it tells it as an integer, or does not
tell it.
-/
namespace ResearchRecords.Document

open Json (Value Members Node Layout CanRead only?)
open Results

/-- A record of one field that is missing, null or as described. -/
structure HasField (name : String) (p : Value → Prop) (v : Value) : Prop where
  record : v.IsRecord
  once : v.GivesOnce name
  field : ∀ w, only? name v = some w → w = .null ∨ p w

/-- An integer of 64 bits with a sign. -/
def IsSigned64 (v : Value) : Prop :=
  ∃ n i, v = .number n ∧ n.found = .integer i ∧ -0x8000000000000000 ≤ i ∧ i ≤ 0x7FFFFFFFFFFFFFFF

/-- A document whose total, if it is told, is an integer. -/
def TellsTotal : Value → Prop :=
  HasField "meta" (HasField "page" (HasField "totalRecords" IsSigned64))

/-- A reader that can read these values, and no others, wherever they stand. -/
def Reads {α : Type} (read : Nat → Node → Except Json.Fault α) (p : Value → Prop) : Prop :=
  ∀ v room node, node.value room = .ok v → ((∃ a, read room node = .ok a) ↔ p v)

section OptionalField

variable {α : Type} {read : Nat → Node → Except Json.Fault α} {p : Value → Prop}

theorem Reads.optional (h : Reads read p) :
    Reads (fun room => Node.optional (read room)) fun v => v = .null ∨ p v := by
  intro v room node hv
  constructor
  · rintro ⟨a?, hread⟩
    rcases optional_eq hread with ⟨rfl, _⟩ | ⟨a, ha, _⟩
    · exact .inl (Except.ok.inj hv).symm
    · exact .inr ((h v room node hv).mp ⟨a, ha⟩)
  · rintro (rfl | hp)
    · rw [Node.eq_null_of_value hv]
      exact ⟨none, rfl⟩
    · exact Node.exists_optional ((h v room node hv).mpr hp)

theorem hasField_of_read (h : Reads read p) (record field : String) {v : Value} {room : Nat}
    {node : Node} (hv : node.value room = .ok v) {a? : Option α}
    (hread : (optionalField record field read).read room node = .ok a?) : HasField field p v := by
  cases node with
  | object nodes ending =>
    obtain ⟨_, members, _, _, _, rfl⟩ := Node.value_object hv
    obtain ⟨honce, hfields⟩ := Layout.exists_field_of_read hv hread
    have hname : field ∈ (optionalField record field read).names := List.mem_singleton_self _
    refine ⟨.inl ⟨members, rfl⟩, ?_, fun w hw => ?_⟩
    · rintro _ ⟨⟩
      exact honce field hname
    · obtain ⟨known, hknown, _, inner, found, before, after, hfound, hafter⟩ :=
        hfields field hname w hw
      obtain rfl := List.mem_singleton.mp hknown
      exact (h.optional w inner found hfound).mp ⟨after, hafter⟩
  | list nodes ending =>
    obtain ⟨inner, items, rfl, hitems, _, rfl⟩ := Node.value_list hv
    rw [Node.valueItems_iff] at hitems
    have honce : (Value.array items).GivesOnce field := by rintro _ ⟨⟩
    match nodes, items, hitems with
    | [], [], _ => exact ⟨.inr ⟨[], rfl, Nat.zero_le 1⟩, honce, by rintro _ ⟨⟩⟩
    | [first], [item], .cons hfirst .nil =>
      refine ⟨.inr ⟨[item], rfl, Nat.le_refl 1⟩, honce, ?_⟩
      rintro _ ⟨⟩
      simp only [optionalField, Layout.read, Layout.readList, Layout.readItems, bind_eq_ok,
        Node.enter_eq_ok, Nat.succ_inj] at hread
      obtain ⟨_, rfl, first?, hread, _⟩ := hread
      exact (h.optional item inner first hfirst).mp ⟨first?, hread⟩
    | _ :: _ :: _, _, _ =>
      simp [optionalField, Layout.read, Layout.readList, Layout.readItems] at hread
  | _ => simp [optionalField, Layout.read] at hread

theorem Reads.optionalField (h : Reads read p) (record field : String) :
    Reads (optionalField record field read).read (HasField field p) := by
  intro v room node hv
  constructor
  · rintro ⟨a?, hread⟩
    exact hasField_of_read h record field hv hread
  · intro hfield
    refine canRead_optionalField record field hfield.record hfield.once ?_ room node hv
    intro w hw inner found hfound
    exact (h.optional w inner found hfound).mpr (hfield.field w hw)

end OptionalField

theorem reads_signed64 : Reads (fun _ => Node.signed64) IsSigned64 := by
  intro v room node hnode
  cases node with
  | number numeral =>
    simp only [Node.value, bind_eq_ok, pure_eq_ok] at hnode
    obtain ⟨n, hn, rfl⟩ := hnode
    cases hfound : n.found with
    | integer i =>
      by_cases hrange : -0x8000000000000000 ≤ i ∧ i ≤ 0x7FFFFFFFFFFFFFFF <;>
        simp [Node.signed64, Node.integer, IsSigned64, hn, hfound, hrange]
    | _ => simp [Node.signed64, Node.integer, IsSigned64, hn, hfound]
  | _ =>
    constructor
    · simp [Node.signed64, Node.integer]
    · rintro ⟨n, i, rfl, _⟩
      simp [Node.value] at hnode

/-- A total can be read exactly if it is told as an integer, or is not told. -/
theorem exists_total_iff {body : Bytes} {v : Value}
    (hv : Json.readWith (Node.value Node.maxDepth) body = .ok v) :
    (∃ n, total body = .ok n) ↔ TellsTotal v := by
  obtain ⟨hvalue, hleftover⟩ := (Json.readWith_eq_ok_iff ..).mp hv
  have hmeta : Reads metaLayout.read (HasField "page" (HasField "totalRecords" IsSigned64)) :=
    (reads_signed64.optionalField "PageMeta" "totalRecords").optionalField "Meta" "page"
  have hreads : Reads metaDocumentLayout.read TellsTotal :=
    hmeta.optionalField "MetaDocument" "meta"
  rw [← hreads v Node.maxDepth _ hvalue]
  constructor
  · rintro ⟨n, hn⟩
    simp only [total, ofJson, bind_eq_ok, mapError_eq_ok] at hn
    obtain ⟨told, hread, _⟩ := hn
    exact ⟨told, ((Json.readWith_eq_ok_iff ..).mp hread).1⟩
  · rintro ⟨told, htold⟩
    have hread : Json.readWith (metaDocumentLayout.read Node.maxDepth) body = .ok told :=
      (Json.readWith_eq_ok_iff ..).mpr ⟨htold, hleftover⟩
    exact ⟨told.join.join.getD unknownTotal, by simp [total, ofJson, Except.mapError, hread]⟩

end ResearchRecords.Document
