import ResearchRecords.Proofs.Json.Layout

/-!
Readers that see values only. A tree whose value is known may stand anywhere in a text, with more or
less room inside, and may be cut into pieces in different ways. A reader is determined by values
when that makes no difference to it: what it reads from one tree it reads from every tree of the same
value. Records of named fields are read so if all their fields are.
-/
namespace ResearchRecords.Json

open Results

theorem ListEnd.eq_closed {ending : ListEnd} (h : ending.fault? = none) : ending = .closed := by
  cases ending <;> simp_all [ListEnd.fault?]

/-- What is read from a tree is read from every other tree of the same value. -/
structure Determined {α : Type} (read : Nat → Node → Except Fault α) : Prop where
  agrees : ∀ {room room' node node' v a}, node.value room = .ok v → node'.value room' = .ok v →
    read room node = .ok a → read room' node' = .ok a

/-- What was read once can be read wherever it stands. -/
theorem Determined.canRead {α : Type} {read : Nat → Node → Except Fault α} (h : Determined read)
    {room : Nat} {node : Node} {v : Value} (hv : node.value room = .ok v) {a : α}
    (hread : read room node = .ok a) : CanRead read v :=
  fun _ _ hv' => ⟨a, h.agrees hv hv' hread⟩

theorem Determined.map {α β : Type} {read : Nat → Node → Except Fault α} (h : Determined read)
    (f : α → β) : Determined fun room node => do return f (← read room node) := by
  constructor
  intro room room' node node' v b hv hv' hb
  simp only [bind_eq_ok, pure_eq_ok] at hb ⊢
  obtain ⟨a, ha, rfl⟩ := hb
  exact ⟨a, h.agrees hv hv' ha, rfl⟩

namespace Node

variable {α : Type} {read : Nat → Node → Except Fault α}

theorem value_determined : Determined value := by
  constructor
  intro room room' node node' v a hv hv' h
  exact hv'.trans (hv.symm.trans h)

/-- Trees of the same values, one by one, give the same results. -/
theorem mapM_determined (hread : Determined read) {room room' : Nat} {nodes nodes' : List Node}
    {values : List Value} (hvalues : valueItems room nodes = .ok values)
    (hvalues' : valueItems room' nodes' = .ok values) {results : List α}
    (h : nodes.mapM (read room) = .ok results) : nodes'.mapM (read room') = .ok results := by
  rw [valueItems_iff] at hvalues hvalues'
  rw [mapM_eq_ok_iff] at h ⊢
  induction hvalues generalizing nodes' results with
  | nil =>
    cases hvalues'
    cases h
    exact .nil
  | cons hv _ ih =>
    cases hvalues' with
    | cons hv' hrest' =>
      cases h with
      | cons hresult hresults => exact .cons (hread.agrees hv hv' hresult) (ih hrest' hresults)

theorem items_determined (hread : Determined read) :
    Determined fun room => items room read := by
  constructor
  intro room room' node node' v results hv hv' h
  cases node with
  | list nodes ending =>
    obtain ⟨inner, values, rfl, hvalues, _, rfl⟩ := value_list hv
    simp only [items, bind_eq_ok, enter_eq_ok, refuse_eq_ok, pure_eq_ok] at h
    obtain ⟨_, hroom, results, hresults, _, _, rfl⟩ := h
    obtain rfl := Nat.succ.inj hroom
    cases node' with
    | list nodes' ending' =>
      obtain ⟨inner', values', rfl, hvalues', hending', heq⟩ := value_list hv'
      obtain rfl := Value.array.inj heq
      simp only [items, bind_eq_ok, enter_eq_ok, refuse_eq_ok, pure_eq_ok]
      exact ⟨inner', rfl, results, mapM_determined hread hvalues hvalues' hresults, (), hending', rfl⟩
    | _ => simp [value] at hv'
  | _ => simp [items] at h

/-- Members of the same names and values, one by one, give the same results. -/
theorem mapM_members_determined (hread : Determined read) {room room' : Nat}
    {members members' : List (List Piece × Node)} {values : Members Value}
    (hvalues : valueMembers room members = .ok values)
    (hvalues' : valueMembers room' members' = .ok values) {results : Members α}
    (h : (members.mapM fun m => do
      let name ← decodePieces m.1
      return (name, ← read room m.2)) = .ok results) :
    (members'.mapM fun m => do
      let name ← decodePieces m.1
      return (name, ← read room' m.2)) = .ok results := by
  rw [valueMembers_iff] at hvalues hvalues'
  rw [mapM_eq_ok_iff] at h ⊢
  induction hvalues generalizing members' results with
  | nil =>
    cases hvalues'
    cases h
    exact .nil
  | cons hm _ ih =>
    cases hvalues' with
    | cons hm' hrest' =>
      cases h with
      | cons hresult hresults =>
        refine .cons ?_ (ih hrest' hresults)
        simp only [hm.1, bind_eq_ok, pure_eq_ok, Except.ok.injEq, exists_eq_left'] at hresult
        obtain ⟨a, ha, rfl⟩ := hresult
        simp only [hm'.1, bind_eq_ok, pure_eq_ok, Except.ok.injEq, exists_eq_left']
        exact ⟨a, hread.agrees hm.2 hm'.2 ha, rfl⟩

theorem members_determined (hread : Determined read) :
    Determined fun room => members room read := by
  constructor
  intro room room' node node' v results hv hv' h
  cases node with
  | object nodes ending =>
    obtain ⟨inner, values, rfl, hvalues, _, rfl⟩ := value_object hv
    simp only [members, bind_eq_ok, enter_eq_ok, refuse_eq_ok] at h
    obtain ⟨_, hroom, results, hresults, _, _, hresult⟩ := h
    obtain rfl := Nat.succ.inj hroom
    cases node' with
    | object nodes' ending' =>
      obtain ⟨inner', values', rfl, hvalues', hending', heq⟩ := value_object hv'
      obtain rfl := Value.object.inj heq
      simp only [members, bind_eq_ok, enter_eq_ok, refuse_eq_ok]
      exact ⟨inner', rfl, results, mapM_members_determined hread hvalues hvalues' hresults, (),
        hending', hresult⟩
    | _ => simp [value] at hv'
  | _ => simp [members] at h

theorem optional_of_value {room : Nat} {node : Node} {v : Value} (hv : node.value room = .ok v)
    (hnull : v ≠ .null) (read : Node → Except Fault α) :
    optional read node = some <$> read node := by
  cases node with
  | null => exact absurd (Except.ok.inj hv).symm hnull
  | _ => rfl

theorem optional_determined (hread : Determined read) :
    Determined fun room => optional (read room) := by
  constructor
  intro room room' node node' v result hv hv' h
  by_cases hnull : v = .null
  · subst hnull
    rw [eq_null_of_value hv] at h
    rw [eq_null_of_value hv']
    exact h
  · change optional (read room) node = .ok result at h
    rw [optional_of_value hv hnull, map_eq_ok] at h
    rw [optional_of_value hv' hnull, map_eq_ok]
    obtain ⟨a, ha, rfl⟩ := h
    exact ⟨a, hread.agrees hv hv' ha, rfl⟩

theorem string_eq_ok_iff {room : Nat} {node : Node} {v : Value} (hv : node.value room = .ok v)
    (s : String) : string node = .ok s ↔ v = .string s := by
  cases node with
  | text pieces =>
    simp only [value, bind_eq_ok, pure_eq_ok] at hv
    obtain ⟨text, htext, rfl⟩ := hv
    simp [string, htext]
  | null =>
    obtain rfl := Except.ok.inj hv
    simp [string]
  | bool b =>
    obtain rfl := Except.ok.inj hv
    simp [string]
  | number n =>
    simp only [value, bind_eq_ok, pure_eq_ok] at hv
    obtain ⟨number, _, rfl⟩ := hv
    simp [string]
  | list items ending =>
    obtain ⟨_, _, _, _, _, rfl⟩ := value_list hv
    simp [string]
  | object members ending =>
    obtain ⟨_, _, _, _, _, rfl⟩ := value_object hv
    simp [string]
  | missing defect => simp [value] at hv

theorem string_determined : Determined fun _ => string := by
  constructor
  intro room room' node node' v s hv hv' h
  exact (string_eq_ok_iff hv' s).mpr ((string_eq_ok_iff hv s).mp h)

end Node

namespace Layout

variable {σ : Type} {layout : Layout σ}

/-- Every field is read so, whatever the record holds already. -/
def FieldsDetermined (layout : Layout σ) : Prop :=
  ∀ field ∈ layout.fields, ∀ record, Determined fun room node => field.read room node record

theorem readMembers_determined (hfields : layout.FieldsDetermined) {room room' : Nat}
    {members members' : List (List Piece × Node)} {values : Members Value}
    (hvalues : Node.valueMembers room members = .ok values)
    (hvalues' : Node.valueMembers room' members' = .ok values) {seen : List String} {record : σ}
    {out : List String × σ} (h : layout.readMembers room members seen record = .ok out) :
    layout.readMembers room' members' seen record = .ok out := by
  rw [Node.valueMembers_iff] at hvalues hvalues'
  induction hvalues generalizing members' seen record with
  | nil =>
    cases hvalues'
    exact h
  | cons hm _ ih =>
    cases hvalues' with
    | cons hm' hrest' =>
      rw [readMembers_cons_iff hm'.1 hm'.2]
      rcases (readMembers_cons_iff hm.1 hm.2 ..).mp h with
        ⟨hunknown, hrest⟩ | ⟨field, next, hknown, hseen, hnext, hrest⟩
      · exact .inl ⟨hunknown, ih hrest' hrest⟩
      · exact .inr ⟨field, next, hknown, hseen,
          (hfields field (mem_of_field? hknown).1 record).agrees hm.2 hm'.2 hnext, ih hrest' hrest⟩

/-- The room inside does not matter when no values are left. -/
theorem readItems_nil (layout : Layout σ) (room room' : Nat) (ending : ListEnd)
    (fields : List (Field σ)) (count : Nat) (record : σ) :
    layout.readItems room ending fields count [] record =
      layout.readItems room' ending fields count [] record := by
  induction fields generalizing count with
  | nil => rfl
  | cons field fields ih => rw [readItems, readItems, ih]

theorem readItems_determined (hfields : layout.FieldsDetermined) {room room' : Nat}
    {ending : ListEnd} {fields : List (Field σ)} (hsub : ∀ field ∈ fields, field ∈ layout.fields)
    {items items' : List Node} {values : List Value}
    (hvalues : Node.valueItems room items = .ok values)
    (hvalues' : Node.valueItems room' items' = .ok values) {count : Nat} {record result : σ}
    (h : layout.readItems room ending fields count items record = .ok result) :
    layout.readItems room' ending fields count items' record = .ok result := by
  rw [Node.valueItems_iff] at hvalues hvalues'
  induction hvalues generalizing items' fields count record with
  | nil =>
    cases hvalues'
    rwa [← readItems_nil layout room room']
  | cons hv _ ih =>
    cases hvalues' with
    | cons hv' hrest' =>
      cases fields with
      | nil => simp [readItems] at h
      | cons field fields =>
        obtain ⟨hfield, hsub⟩ := List.forall_mem_cons.mp hsub
        simp only [readItems, bind_eq_ok] at h ⊢
        obtain ⟨next, hnext, hrest⟩ := h
        exact ⟨next, (hfields field hfield record).agrees hv hv' hnext, ih hsub hrest' hrest⟩

/-- A record is determined by values if all its fields are. -/
theorem read_determined (hfields : layout.FieldsDetermined) : Determined layout.read := by
  constructor
  intro room room' node node' v record hv hv' h
  cases node with
  | object members ending =>
    obtain ⟨inner, values, rfl, hvalues, hending, rfl⟩ := Node.value_object hv
    simp only [read, readObject, bind_eq_ok, Node.enter_eq_ok, refuse_eq_ok] at h
    obtain ⟨_, hroom, out, hout, _, _, hrecord⟩ := h
    obtain rfl := Nat.succ.inj hroom
    cases node' with
    | object members' ending' =>
      obtain ⟨inner', values', rfl, hvalues', hending', heq⟩ := Node.value_object hv'
      obtain rfl := Value.object.inj heq
      simp only [read, readObject, bind_eq_ok, Node.enter_eq_ok, refuse_eq_ok]
      exact ⟨inner', rfl, out, readMembers_determined hfields hvalues hvalues' hout, (), hending',
        hrecord⟩
    | _ => simp [Node.value] at hv'
  | list items ending =>
    obtain ⟨inner, values, rfl, hvalues, hending, rfl⟩ := Node.value_list hv
    simp only [read, readList, bind_eq_ok, Node.enter_eq_ok] at h
    obtain ⟨_, hroom, hrecord⟩ := h
    obtain rfl := Nat.succ.inj hroom
    obtain rfl := ListEnd.eq_closed hending
    cases node' with
    | list items' ending' =>
      obtain ⟨inner', values', rfl, hvalues', hending', heq⟩ := Node.value_list hv'
      obtain rfl := Value.array.inj heq
      obtain rfl := ListEnd.eq_closed hending'
      simp only [read, readList, bind_eq_ok, Node.enter_eq_ok]
      exact ⟨inner', rfl,
        readItems_determined hfields (fun _ hfield => hfield) hvalues hvalues' hrecord⟩
    | _ => simp [Node.value] at hv'
  | _ => simp [read] at h

end Layout

end ResearchRecords.Json
