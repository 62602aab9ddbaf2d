import ResearchRecords.Json.Layout
import ResearchRecords.Proofs.Json.Canonical
import ResearchRecords.Proofs.Results

/-!
Trees and the values they stand for. A value can be read from a tree only within some depth, and only
if all its scalars are well formed. What a tree stands for can be told without such limits: where a
value can be read, it is this one.
-/
namespace ResearchRecords.Json

open Results

theorem ListEnd.skipFault?_eq_none {ending : ListEnd} (h : ending.fault? = none) :
    ending.skipFault? = none := by
  cases ending <;> simp_all [ListEnd.fault?, ListEnd.skipFault?]

theorem ObjectEnd.eq_closed {ending : ObjectEnd} (h : ending.fault? = none) :
    ending = .closed := by
  unfold ObjectEnd.fault? at h
  split at h <;> simp_all

@[simp] theorem refuse_eq_ok (fault? : Option Fault) (u : Unit) :
    refuse fault? = .ok u ↔ fault? = none := by
  cases fault? <;> simp [refuse]

namespace Node

@[simp] theorem enter_eq_ok (room inner : Nat) : enter room = .ok inner ↔ room = inner + 1 := by
  cases room <;> simp [enter]

/-- A null is known by its value. -/
theorem eq_null_of_value {room : Nat} {node : Node} (h : node.value room = .ok .null) :
    node = .null := by
  cases node with
  | null => rfl
  | _ => simp [value] at h

theorem value_list {room : Nat} {items : List Node} {ending : ListEnd} {v : Value}
    (h : (Node.list items ending).value room = .ok v) :
    ∃ inner values, room = inner + 1 ∧ valueItems inner items = .ok values ∧
      ending.fault? = none ∧ v = .array values := by
  simp only [value, bind_eq_ok, enter_eq_ok, refuse_eq_ok, pure_eq_ok] at h
  obtain ⟨inner, hroom, values, hvalues, _, hending, rfl⟩ := h
  exact ⟨inner, values, hroom, hvalues, hending, rfl⟩

theorem value_object {room : Nat} {members : List (List Piece × Node)} {ending : ObjectEnd}
    {v : Value} (h : (Node.object members ending).value room = .ok v) :
    ∃ inner values, room = inner + 1 ∧ valueMembers inner members = .ok values ∧
      ending.fault? = none ∧ v = .object values := by
  simp only [value, bind_eq_ok, enter_eq_ok, refuse_eq_ok, pure_eq_ok] at h
  obtain ⟨inner, hroom, values, hvalues, _, hending, rfl⟩ := h
  exact ⟨inner, values, hroom, hvalues, hending, rfl⟩

theorem valueItems_iff (room : Nat) (items : List Node) (values : List Value) :
    valueItems room items = .ok values ↔
      List.Forall₂ (fun node v => node.value room = .ok v) items values := by
  rw [← mapM_eq_ok_iff]
  suffices valueItems room items = items.mapM (value room) by rw [this]
  induction items with
  | nil => rfl
  | cons item items ih => rw [valueItems, List.mapM_cons, ih]

theorem valueMembers_iff (room : Nat) (members : List (List Piece × Node))
    (values : Members Value) :
    valueMembers room members = .ok values ↔
      List.Forall₂ (fun m v => decodePieces m.1 = .ok v.1 ∧ m.2.value room = .ok v.2)
        members values := by
  induction members generalizing values with
  | nil => cases values <;> simp [valueMembers]
  | cons m members ih =>
    simp only [valueMembers, bind_eq_ok, pure_eq_ok]
    constructor
    · rintro ⟨name, hname, v, hv, rest, hrest, rfl⟩
      exact .cons ⟨hname, hv⟩ ((ih rest).mp hrest)
    · intro h
      cases h with
      | cons hm hrest => exact ⟨_, hm.1, _, hm.2, _, (ih _).mpr hrest, rfl⟩

mutual

/-- What can be read can be passed over. -/
theorem skip_of_value {room : Nat} : ∀ (node : Node) {v : Value},
    node.value room = .ok v → node.skip = .ok ()
  | .missing _, _, h => by simp [value] at h
  | .null, _, _ => rfl
  | .bool _, _, _ => rfl
  | .number _, _, _ => rfl
  | .text _, _, _ => rfl
  | .list items ending, _, h => by
    obtain ⟨inner, values, _, hvalues, hending, _⟩ := value_list h
    simp only [skip, skipItems_of_value items hvalues, ListEnd.skipFault?_eq_none hending]
    rfl
  | .object members ending, _, h => by
    obtain ⟨inner, values, _, hvalues, hending, _⟩ := value_object h
    simp only [skip, skipMembers_of_value members hvalues, ObjectEnd.eq_closed hending]
    rfl

theorem skipItems_of_value {room : Nat} : ∀ (items : List Node) {values : List Value},
    valueItems room items = .ok values → skipItems items = .ok ()
  | [], _, _ => rfl
  | item :: items, _, h => by
    simp only [valueItems, bind_eq_ok] at h
    obtain ⟨v, hv, rest, hrest, _⟩ := h
    simp only [skipItems, skip_of_value item hv, skipItems_of_value items hrest]
    rfl

theorem skipMembers_of_value {room : Nat} :
    ∀ (members : List (List Piece × Node)) {values : Members Value},
      valueMembers room members = .ok values → skipMembers members = .ok ()
  | [], _, _ => rfl
  | (_, node) :: members, _, h => by
    simp only [valueMembers, bind_eq_ok] at h
    obtain ⟨_, _, v, hv, rest, hrest, _⟩ := h
    simp only [skipMembers, skip_of_value node hv, skipMembers_of_value members hrest]
    rfl

end

end Node

namespace Node

mutual

/-- What a tree stands for, at any depth. Null takes the place of a scalar that cannot be read, and a
member whose name cannot be read is left out. -/
def outline : Node → Value
  | .missing _ => .null
  | .null => .null
  | .bool b => .bool b
  | .number n => (n.number.toOption.map Value.number).getD .null
  | .text pieces => ((decodePieces pieces).toOption.map Value.string).getD .null
  | .list items _ => .array (outlineItems items)
  | .object members _ => .object (outlineMembers members)

def outlineItems : List Node → List Value
  | [] => []
  | item :: rest => item.outline :: outlineItems rest

def outlineMembers : List (List Piece × Node) → Members Value
  | [] => []
  | (key, node) :: rest =>
    match (decodePieces key).toOption with
    | some name => (name, node.outline) :: outlineMembers rest
    | none => outlineMembers rest

end

theorem outlineItems_eq (items : List Node) : outlineItems items = items.map outline := by
  induction items with
  | nil => rfl
  | cons item items ih => rw [outlineItems, ih, List.map_cons]

theorem outlineMembers_cons {key : List Piece} {name : String} (h : decodePieces key = .ok name)
    (node : Node) (rest : List (List Piece × Node)) :
    outlineMembers ((key, node) :: rest) = (name, node.outline) :: outlineMembers rest := by
  rw [outlineMembers, h]
  rfl

mutual

/-- A value that can be read is what the tree stands for. -/
theorem outline_of_value {room : Nat} : ∀ (node : Node) {v : Value},
    node.value room = .ok v → node.outline = v
  | .missing _, _, h => by simp [value] at h
  | .null, _, h => Except.ok.inj h
  | .bool _, _, h => Except.ok.inj h
  | .number n, _, h => by
    simp only [value, bind_eq_ok, pure_eq_ok] at h
    obtain ⟨number, hnumber, rfl⟩ := h
    rw [outline, hnumber]
    rfl
  | .text pieces, _, h => by
    simp only [value, bind_eq_ok, pure_eq_ok] at h
    obtain ⟨text, htext, rfl⟩ := h
    rw [outline, htext]
    rfl
  | .list items ending, _, h => by
    obtain ⟨inner, values, _, hvalues, _, rfl⟩ := value_list h
    rw [outline, outlineItems_of_value items hvalues]
  | .object members ending, _, h => by
    obtain ⟨inner, values, _, hvalues, _, rfl⟩ := value_object h
    rw [outline, outlineMembers_of_value members hvalues]

theorem outlineItems_of_value {room : Nat} : ∀ (items : List Node) {values : List Value},
    valueItems room items = .ok values → outlineItems items = values
  | [], _, h => Except.ok.inj h
  | item :: items, _, h => by
    simp only [valueItems, bind_eq_ok, pure_eq_ok] at h
    obtain ⟨v, hv, rest, hrest, rfl⟩ := h
    rw [outlineItems, outline_of_value item hv, outlineItems_of_value items hrest]

theorem outlineMembers_of_value {room : Nat} :
    ∀ (members : List (List Piece × Node)) {values : Members Value},
      valueMembers room members = .ok values → outlineMembers members = values
  | [], _, h => Except.ok.inj h
  | (key, node) :: members, _, h => by
    simp only [valueMembers, bind_eq_ok, pure_eq_ok] at h
    obtain ⟨name, hname, v, hv, rest, hrest, rfl⟩ := h
    rw [outlineMembers_cons hname, outline_of_value node hv, outlineMembers_of_value members hrest]

end

end Node

/-- The tree of a text, as far as the text goes. -/
def root (bytes : Bytes) : Node := (Node.ofTokens (Token.ofBytes bytes)).1

theorem readWith_eq_ok_iff {α : Type} (read : Node → Except Fault α) (bytes : Bytes) (a : α) :
    readWith read bytes = .ok a ↔
      read (root bytes) = .ok a ∧ (Node.ofTokens (Token.ofBytes bytes)).2 = false := by
  simp only [readWith, bind_eq_ok, root]
  constructor
  · rintro ⟨result, hread, hend⟩
    split at hend
    · exact absurd hend (by simp)
    · next hleftover =>
      obtain rfl := (pure_eq_ok ..).mp hend
      exact ⟨hread, by simpa using hleftover⟩
  · rintro ⟨hread, hleftover⟩
    exact ⟨a, hread, by simp [hleftover]⟩

end ResearchRecords.Json
