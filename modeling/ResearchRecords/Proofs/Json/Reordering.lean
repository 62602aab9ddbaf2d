import ResearchRecords.Proofs.Json.Determined
import Mathlib.Data.List.Perm.Basic

/-!
Trees that differ in the order of members. In any object the members may come in another order; items
of lists stay where they are. Such trees stand for values of one canonical form, and whatever is read
from one of them can be read from the other.
-/
namespace ResearchRecords

open Results

/-- Each item of either list has a partner of its own in the other. -/
def Matched {α β : Type} (R : α → β → Prop) : List α → List β → Prop :=
  Relation.Comp (List.Forall₂ R) List.Perm

namespace Matched

variable {α β γ δ : Type} {R : α → β → Prop} {xs : List α} {ys : List β}

theorem of_forall₂ (h : List.Forall₂ R xs ys) : Matched R xs ys := ⟨ys, h, .refl ys⟩

theorem of_perm {R : α → α → Prop} {xs ys : List α} (hrefl : ∀ x ∈ xs, R x x)
    (hperm : xs.Perm ys) : Matched R xs ys :=
  ⟨xs, List.forall₂_same.mpr hrefl, hperm⟩

theorem exists_left (h : Matched R xs ys) {y : β} (hy : y ∈ ys) : ∃ x ∈ xs, R x y := by
  obtain ⟨mixed, hR, hperm⟩ := h
  obtain ⟨x, hx, hxy⟩ := exists_mem_of_forall₂ hR.flip (hperm.mem_iff.mpr hy)
  exact ⟨x, hx, hxy⟩

theorem symm (h : Matched R xs ys) : Matched (fun y x => R x y) ys xs := by
  obtain ⟨mixed, hR, hperm⟩ := h
  exact List.perm_comp_forall₂ hperm.symm hR.flip

theorem exists_right (h : Matched R xs ys) {x : α} (hx : x ∈ xs) : ∃ y ∈ ys, R x y :=
  h.symm.exists_left hx

theorem imp {S : α → β → Prop} (hRS : ∀ x y, R x y → S x y) (h : Matched R xs ys) :
    Matched S xs ys := by
  obtain ⟨mixed, hR, hperm⟩ := h
  exact ⟨mixed, hR.imp hRS, hperm⟩

theorem filterMap {S : γ → δ → Prop} {f : α → Option γ} {g : β → Option δ}
    (hfg : ∀ x y, R x y → Option.Rel S (f x) (g y)) (h : Matched R xs ys) :
    Matched S (xs.filterMap f) (ys.filterMap g) := by
  obtain ⟨mixed, hR, hperm⟩ := h
  exact ⟨mixed.filterMap g, List.rel_filterMap (fun x y hxy => hfg x y hxy) hR, hperm.filterMap g⟩

theorem map {S : γ → δ → Prop} {f : α → γ} {g : β → δ} (hfg : ∀ x y, R x y → S (f x) (g y))
    (h : Matched R xs ys) : Matched S (xs.map f) (ys.map g) := by
  obtain ⟨mixed, hR, hperm⟩ := h
  exact ⟨mixed.map g, List.rel_map (fun x y hxy => hfg x y hxy) hR, hperm.map g⟩

/-- Lists whose partners are equal are permutations of one another. -/
theorem perm {xs ys : List α} (h : Matched Eq xs ys) : xs.Perm ys := by
  obtain ⟨mixed, heq, hperm⟩ := h
  rw [List.forall₂_eq_eq_eq] at heq
  rwa [heq]

end Matched

theorem map_eq_of_rel {α β γ : Type} {R : α → β → Prop} {a? : Option α} {b? : Option β}
    (h : Option.Rel R a? b?) {f : α → γ} {g : β → γ}
    (hfg : ∀ a b, a? = some a → R a b → f a = g b) : a?.map f = b?.map g := by
  cases h with
  | none => rfl
  | some hab => exact congrArg some (hfg _ _ rfl hab)

theorem getD_of_rel {α β : Type} {R P : α → β → Prop} {a? : Option α} {b? : Option β}
    (h : Option.Rel R a? b?) {a : α} {b : β} (hnone : P a b)
    (hsome : ∀ v w, a? = some v → R v w → P v w) : P (a?.getD a) (b?.getD b) := by
  cases h with
  | none => exact hnone
  | some hvw => exact hsome _ _ rfl hvw

namespace Json

namespace Members

variable {α β : Type} {S : String × α → String × β → Prop} {a : Members α} {b : Members β}

theorem names_perm (hname : ∀ m m', S m m' → m.1 = m'.1) (h : Matched S a b) :
    (names a).Perm (names b) :=
  (h.map hname).perm

/-- Partners are found under the same name. -/
theorem rel_get? (hname : ∀ m m', S m m' → m.1 = m'.1) (h : Matched S a b)
    (hnodup : (names a).Nodup) (name : String) :
    Option.Rel (fun v w => S (name, v) (name, w)) (get? a name) (get? b name) := by
  have hperm := names_perm hname h
  cases hget : get? a name with
  | none =>
    have hnone : get? b name = none := by
      rw [get?_eq_none_iff] at hget ⊢
      exact fun hmem => hget (hperm.mem_iff.mpr hmem)
    rw [hnone]
    exact .none
  | some v =>
    obtain ⟨⟨other, w⟩, hmem, hrel⟩ := h.exists_right (mem_of_get?_eq_some hget)
    obtain rfl : name = other := hname _ _ hrel
    rw [(get?_eq_some_iff (hperm.nodup_iff.mp hnodup) name w).mpr hmem]
    exact .some hrel

end Members

/-- Texts of the same characters, if they can be read at all. -/
def SameText (p q : List Piece) : Prop := (decodePieces p).toOption = (decodePieces q).toOption

/-- Whole trees that are equal up to the order of the members of their objects. -/
inductive Reordered : Node → Node → Prop
  | null : Reordered .null .null
  | bool (b : Bool) : Reordered (.bool b) (.bool b)
  | number {n m : Numeral} (same : n.number.toOption = m.number.toOption) :
      Reordered (.number n) (.number m)
  | text {p q : List Piece} (same : SameText p q) : Reordered (.text p) (.text q)
  | list {items items' : List Node} (each : List.Forall₂ Reordered items items') :
      Reordered (.list items .closed) (.list items' .closed)
  | object {members mixed members' : List (List Piece × Node)}
      (names : List.Forall₂ (fun m m' => SameText m.1 m'.1) members mixed)
      (each : List.Forall₂ (fun m m' => Reordered m.2 m'.2) members mixed)
      (order : mixed.Perm members') :
      Reordered (.object members .closed) (.object members' .closed)

/-- Lists whose items are equal up to the order of members, and come in any order. -/
def Permuted (a b : Node) : Prop :=
  ∃ items items', a = .list items .closed ∧ b = .list items' .closed ∧
    Matched Reordered items items'

/-- Members of the same name whose values are equal up to the order of members. -/
def SameMember (m m' : List Piece × Node) : Prop := SameText m.1 m'.1 ∧ Reordered m.2 m'.2

theorem forall₂_and {α β : Type} {R S : α → β → Prop} {xs : List α} {ys : List β}
    (hR : List.Forall₂ R xs ys) (hS : List.Forall₂ S xs ys) :
    List.Forall₂ (fun x y => R x y ∧ S x y) xs ys := by
  induction hR with
  | nil => exact .nil
  | cons hxy _ ih =>
    cases hS with
    | cons hxy' hrest => exact .cons ⟨hxy, hxy'⟩ (ih hrest)

namespace Reordered

/-- What holds of scalars, and of lists and objects whenever it holds of what is inside, holds of all
trees that are equal up to the order of members. -/
theorem induct {motive : (a b : Node) → Reordered a b → Prop} (null : motive .null .null .null)
    (bool : ∀ b, motive (.bool b) (.bool b) (.bool b))
    (number : ∀ (n m : Numeral) (same : n.number.toOption = m.number.toOption),
      motive (.number n) (.number m) (.number same))
    (text : ∀ (p q : List Piece) (same : SameText p q), motive (.text p) (.text q) (.text same))
    (list : ∀ (items items' : List Node) (each : List.Forall₂ Reordered items items'),
      List.Forall₂ (fun a b => ∃ h, motive a b h) items items' →
        motive (.list items .closed) (.list items' .closed) (.list each))
    (object : ∀ (members mixed members' : List (List Piece × Node))
      (names : List.Forall₂ (fun m m' => SameText m.1 m'.1) members mixed)
      (each : List.Forall₂ (fun m m' => Reordered m.2 m'.2) members mixed)
      (order : mixed.Perm members'),
      Matched (fun m m' => SameText m.1 m'.1 ∧ ∃ h, motive m.2 m'.2 h) members members' →
        motive (.object members .closed) (.object members' .closed) (.object names each order))
    {a b : Node} (h : Reordered a b) : motive a b h := by
  refine @rec motive (fun items items' _ => List.Forall₂ (fun a b => ∃ h, motive a b h) items items')
    (fun members mixed _ => List.Forall₂
      (fun (m m' : List Piece × Node) => ∃ h, motive m.2 m'.2 h) members mixed)
    null bool (number _ _) (text _ _) (list _ _) ?_ .nil ?_ .nil ?_ a b h
  · intro members mixed members' names each order ih
    exact object _ _ _ names each order ⟨_, forall₂_and names ih, order⟩
  · intro a b items items' hab _ ih ihs
    exact .cons ⟨hab, ih⟩ ihs
  · intro m m' members mixed hm _ ih ihs
    exact .cons ⟨hm, ih⟩ ihs

theorem of_matched {members members' : List (List Piece × Node)}
    (h : Matched SameMember members members') :
    Reordered (.object members .closed) (.object members' .closed) := by
  obtain ⟨mixed, heach, horder⟩ := h
  exact .object (heach.imp fun _ _ => And.left) (heach.imp fun _ _ => And.right) horder

theorem symm {a b : Node} (h : Reordered a b) : Reordered b a := by
  induction h using induct with
  | null => exact .null
  | bool b => exact .bool b
  | number n m same => exact .number same.symm
  | text p q same => exact .text same.symm
  | list items items' _ ih => exact .list (ih.flip.imp fun _ _ ⟨_, h⟩ => h)
  | object members mixed members' _ _ _ ih =>
    exact of_matched (ih.symm.imp fun _ _ ⟨hname, _, h⟩ => ⟨hname.symm, h⟩)

theorem eq_null (a b : Node) (h : Reordered a b) (ha : a = .null) : b = .null := by
  cases h with
  | null => rfl
  | _ => cases ha

end Reordered

theorem Permuted.symm {a b : Node} (h : Permuted a b) : Permuted b a := by
  obtain ⟨items, items', ha, hb, hmatched⟩ := h
  exact ⟨items', items, hb, ha, hmatched.symm.imp fun _ _ h => h.symm⟩

theorem Permuted.eq_null (a b : Node) (h : Permuted a b) (ha : a = .null) : b = .null := by
  obtain ⟨_, _, rfl, _⟩ := h
  cases ha

/-- A value without repeated names has this one for its canonical form, too. -/
def Value.SameForm (v w : Value) : Prop := v.Distinct → w.Distinct ∧ w.canonical = v.canonical

theorem Value.sameForm_object {a b : Members Value}
    (h : Matched (fun m m' => m.1 = m'.1 ∧ m.2.SameForm m'.2) a b) :
    (Value.object a).SameForm (.object b) := by
  intro hdistinct
  obtain ⟨hnodup, hmembers⟩ := (distinct_object_iff a).mp hdistinct
  have hnodup' := (Members.names_perm (fun _ _ => And.left) h).nodup_iff.mp hnodup
  constructor
  · refine (distinct_object_iff b).mpr ⟨hnodup', fun m' hm' => ?_⟩
    obtain ⟨m, hm, _, hform⟩ := h.exists_left hm'
    exact (hform (hmembers m hm)).1
  · rw [canonical_object, canonical_object]
    congr 1
    apply (Members.sorted_ordered _).ext (Members.sorted_ordered _)
    intro name
    have hrel := Members.rel_get? (fun _ _ => And.left) h hnodup name
    rw [← canonicalObject, ← canonicalObject, get?_canonicalObject, get?_canonicalObject]
    refine (map_eq_of_rel hrel fun v w hv hform => ?_).symm
    exact (hform.2 (hmembers _ (Members.mem_of_get?_eq_some hv))).2.symm

theorem Value.canonicals_of_sameForm {items items' : List Value}
    (h : List.Forall₂ Value.SameForm items items') (hdistinct : ∀ v ∈ items, v.Distinct) :
    (∀ v ∈ items', v.Distinct) ∧ items'.map canonical = items.map canonical := by
  induction h with
  | nil => exact ⟨by simp, rfl⟩
  | cons hform _ ih =>
    obtain ⟨hfirst, hrest⟩ := List.forall_mem_cons.mp hdistinct
    obtain ⟨hdistincts, hcanonicals⟩ := ih hrest
    obtain ⟨hdistinct', hcanonical⟩ := hform hfirst
    refine ⟨List.forall_mem_cons.mpr ⟨hdistinct', hdistincts⟩, ?_⟩
    rw [List.map_cons, List.map_cons, hcanonical, hcanonicals]

theorem Value.sameForm_array {items items' : List Value}
    (h : List.Forall₂ Value.SameForm items items') : (Value.array items).SameForm (.array items') := by
  intro hdistinct
  rw [distinct_array_iff] at hdistinct ⊢
  obtain ⟨hdistinct', hcanonicals⟩ := canonicals_of_sameForm h hdistinct
  rw [canonical_array, canonical_array, hcanonicals]
  exact ⟨hdistinct', rfl⟩

/-- Lists in another order have permuted canonical forms. -/
theorem Value.perm_canonicals {items items' : List Value} (h : Matched Value.SameForm items items')
    (hdistinct : ∀ v ∈ items, v.Distinct) :
    (∀ v ∈ items', v.Distinct) ∧ (items.map canonical).Perm (items'.map canonical) := by
  obtain ⟨mixed, hform, hperm⟩ := h
  obtain ⟨hdistinct', hcanonicals⟩ := canonicals_of_sameForm hform hdistinct
  refine ⟨fun v hv => hdistinct' v (hperm.mem_iff.mpr hv), ?_⟩
  rw [← hcanonicals]
  exact hperm.map canonical

theorem Node.outlineMembers_eq (members : List (List Piece × Node)) :
    outlineMembers members = members.filterMap fun m =>
      (decodePieces m.1).toOption.map fun name => (name, m.2.outline) := by
  induction members with
  | nil => rfl
  | cons m members ih =>
    obtain ⟨key, node⟩ := m
    rw [outlineMembers, List.filterMap_cons]
    cases (decodePieces key).toOption with
    | none => exact ih
    | some name => exact congrArg ((name, node.outline) :: ·) ih

/-- Members that match in the tree match in what it stands for. -/
theorem matched_outlineMembers {R : List Piece × Node → List Piece × Node → Prop}
    {S : String × Value → String × Value → Prop} (hname : ∀ m m', R m m' → SameText m.1 m'.1)
    (hRS : ∀ m m', R m m' → ∀ name, decodePieces m.1 = .ok name →
      S (name, m.2.outline) (name, m'.2.outline)) {members members' : List (List Piece × Node)}
    (h : Matched R members members') :
    Matched S (Node.outlineMembers members) (Node.outlineMembers members') := by
  rw [Node.outlineMembers_eq, Node.outlineMembers_eq]
  refine h.filterMap fun m m' hm => ?_
  have hsame := hname m m' hm
  rw [SameText] at hsame
  rw [← hsame]
  cases hdecoded : (decodePieces m.1).toOption with
  | none => exact .none
  | some name => exact .some (hRS m m' hm name ((toOption_eq_some ..).mp hdecoded))

theorem Reordered.sameForm {a b : Node} (h : Reordered a b) : a.outline.SameForm b.outline := by
  induction h using Reordered.induct with
  | null => exact fun h => ⟨h, rfl⟩
  | bool b => exact fun h => ⟨h, rfl⟩
  | number n m same =>
    rw [Node.outline, Node.outline, same]
    exact fun h => ⟨h, rfl⟩
  | text p q same =>
    rw [Node.outline, Node.outline, show _ = _ from same]
    exact fun h => ⟨h, rfl⟩
  | list items items' _ ih =>
    rw [Node.outline, Node.outline, Node.outlineItems_eq, Node.outlineItems_eq]
    refine Value.sameForm_array ?_
    rw [List.forall₂_map_left_iff, List.forall₂_map_right_iff]
    exact ih.imp fun _ _ ⟨_, hform⟩ => hform
  | object members mixed members' _ _ _ ih =>
    rw [Node.outline, Node.outline]
    refine Value.sameForm_object (matched_outlineMembers (fun _ _ => And.left) ?_ ih)
    rintro m m' ⟨_, _, hform⟩ name _
    exact ⟨rfl, hform⟩

theorem Permuted.outline {a b : Node} (h : Permuted a b) :
    ∃ items items', a.outline = .array items ∧ b.outline = .array items' ∧
      Matched Value.SameForm items items' := by
  obtain ⟨items, items', rfl, rfl, hmatched⟩ := h
  refine ⟨_, _, rfl, rfl, ?_⟩
  rw [Node.outlineItems_eq, Node.outlineItems_eq]
  exact hmatched.map fun _ _ h => h.sameForm

theorem exists_forall₂_iff {α β : Type} {R : α → β → Prop} {xs : List α} :
    (∃ ys, List.Forall₂ R xs ys) ↔ ∀ x ∈ xs, ∃ y, R x y := by
  constructor
  · rintro ⟨ys, hR⟩ x hx
    obtain ⟨y, _, hxy⟩ := exists_mem_of_forall₂ hR hx
    exact ⟨y, hxy⟩
  · exact exists_forall₂

namespace Node

theorem skipItems_eq_ok_iff (items : List Node) :
    skipItems items = .ok () ↔ ∀ item ∈ items, item.skip = .ok () := by
  induction items with
  | nil => simp [skipItems]
  | cons item items ih =>
    rw [skipItems, bind_eq_ok, List.forall_mem_cons, ← ih]
    exact ⟨fun ⟨_, h⟩ => h, fun h => ⟨(), h⟩⟩

theorem skipMembers_eq_ok_iff (members : List (List Piece × Node)) :
    skipMembers members = .ok () ↔ ∀ m ∈ members, m.2.skip = .ok () := by
  induction members with
  | nil => simp [skipMembers]
  | cons m members ih =>
    rw [skipMembers, bind_eq_ok, List.forall_mem_cons, ← ih]
    exact ⟨fun ⟨_, h⟩ => h, fun h => ⟨(), h⟩⟩

theorem exists_value_list_iff (room : Nat) (items : List Node) :
    (∃ v, (Node.list items .closed).value room = .ok v) ↔
      ∃ inner, room = inner + 1 ∧ ∀ item ∈ items, ∃ v, item.value inner = .ok v := by
  simp only [← exists_forall₂_iff, ← valueItems_iff]
  constructor
  · rintro ⟨v, hv⟩
    obtain ⟨inner, values, hroom, hvalues, _⟩ := value_list hv
    exact ⟨inner, hroom, values, hvalues⟩
  · rintro ⟨inner, rfl, values, hvalues⟩
    exact ⟨.array values, by simp [value, hvalues, ListEnd.fault?]⟩

theorem exists_value_object_iff (room : Nat) (members : List (List Piece × Node)) :
    (∃ v, (Node.object members .closed).value room = .ok v) ↔
      ∃ inner, room = inner + 1 ∧ ∀ m ∈ members, ∃ v : String × Value,
        decodePieces m.1 = .ok v.1 ∧ m.2.value inner = .ok v.2 := by
  simp only [← exists_forall₂_iff, ← valueMembers_iff]
  constructor
  · rintro ⟨v, hv⟩
    obtain ⟨inner, values, hroom, hvalues, _⟩ := value_object hv
    exact ⟨inner, hroom, values, hvalues⟩
  · rintro ⟨inner, rfl, values, hvalues⟩
    exact ⟨.object values, by simp [value, hvalues, ObjectEnd.fault?]⟩

end Node

theorem SameText.decodePieces_eq {p q : List Piece} (h : SameText p q) {s : String}
    (hp : decodePieces p = .ok s) : decodePieces q = .ok s := by
  rw [← toOption_eq_some, ← show _ = _ from h]
  exact (toOption_eq_some ..).mpr hp

/-- Trees that are equal up to the order of members are whole. -/
theorem Reordered.skip_eq {a b : Node} (h : Reordered a b) : b.skip = .ok () := by
  induction h using Reordered.induct with
  | list items items' _ ih =>
    have hitems : Node.skipItems items' = .ok () := by
      rw [Node.skipItems_eq_ok_iff]
      intro item hitem
      obtain ⟨_, _, _, hskip⟩ := exists_mem_of_forall₂ ih.flip hitem
      exact hskip
    rw [Node.skip, hitems]
    rfl
  | object members mixed members' _ _ _ ih =>
    have hmembers : Node.skipMembers members' = .ok () := by
      rw [Node.skipMembers_eq_ok_iff]
      intro m hm
      obtain ⟨_, _, _, _, hskip⟩ := ih.exists_left hm
      exact hskip
    rw [Node.skip, hmembers]
    rfl
  | _ => rfl

theorem Permuted.skip_eq {a b : Node} (h : Permuted a b) : b.skip = .ok () := by
  obtain ⟨items, items', _, rfl, hmatched⟩ := h
  have hitems : Node.skipItems items' = .ok () := by
    rw [Node.skipItems_eq_ok_iff]
    intro item hitem
    obtain ⟨_, _, hreordered⟩ := hmatched.exists_left hitem
    exact hreordered.skip_eq
  rw [Node.skip, hitems]
  rfl

/-- What can be read from the first of two trees can be read from the second if they are so related. -/
def Stable (R : Node → Node → Prop) {α : Type} (read : Nat → Node → Except Fault α) : Prop :=
  ∀ room a b, R a b → (∃ r, read room a = .ok r) → ∃ r, read room b = .ok r

theorem stable_value : Stable Reordered fun room node => node.value room := by
  intro room a b h
  induction h using Reordered.induct generalizing room with
  | number n m same =>
    simp only [Node.value, bind_eq_ok, pure_eq_ok]
    rintro ⟨v, number, hnumber, rfl⟩
    rw [← toOption_eq_some, same, toOption_eq_some] at hnumber
    exact ⟨_, number, hnumber, rfl⟩
  | text p q same =>
    simp only [Node.value, bind_eq_ok, pure_eq_ok]
    rintro ⟨v, text, htext, rfl⟩
    exact ⟨_, text, same.decodePieces_eq htext, rfl⟩
  | list items items' _ ih =>
    simp only [Node.exists_value_list_iff]
    rintro ⟨inner, rfl, hitems⟩
    refine ⟨inner, rfl, fun item' hitem' => ?_⟩
    obtain ⟨item, hitem, _, hstable⟩ := exists_mem_of_forall₂ ih.flip hitem'
    exact hstable inner (hitems item hitem)
  | object members mixed members' _ _ _ ih =>
    simp only [Node.exists_value_object_iff]
    rintro ⟨inner, rfl, hmembers⟩
    refine ⟨inner, rfl, fun m' hm' => ?_⟩
    obtain ⟨m, hm, hname, _, hstable⟩ := ih.exists_left hm'
    obtain ⟨v, hdecoded, hv⟩ := hmembers m hm
    obtain ⟨w, hw⟩ := hstable inner ⟨v.2, hv⟩
    exact ⟨(v.1, w), hname.decodePieces_eq hdecoded, hw⟩
  | _ => exact id

theorem stable_value_of_permuted : Stable Permuted fun room node => node.value room := by
  rintro room _ _ ⟨items, items', rfl, rfl, hmatched⟩
  simp only [Node.exists_value_list_iff]
  rintro ⟨inner, rfl, hitems⟩
  refine ⟨inner, rfl, fun item' hitem' => ?_⟩
  obtain ⟨item, hitem, hreordered⟩ := hmatched.exists_left hitem'
  exact stable_value inner _ _ hreordered (hitems item hitem)

end Json

end ResearchRecords
