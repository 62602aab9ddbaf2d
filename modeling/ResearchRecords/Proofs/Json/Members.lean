import ResearchRecords.Json.Value
import Mathlib.Data.List.Induction
import Mathlib.Data.List.Sort
import Mathlib.Data.String.Basic

/-!
Looking up members. Ordered members are sorted by name without repetitions, and they are determined
by what is found under each name. Ordering members keeps what is found under every name, and so the
canonical form of an object shows the canonical forms of the same values.
-/
namespace ResearchRecords.Json.Members

variable {α β : Type}

def names (members : Members α) : List String := members.map Prod.fst

/-- Strictly sorted by name. -/
def Sorted (members : Members α) : Prop := members.Pairwise fun a b => a.1 < b.1

/-- Puts further members in their places, one after the other. -/
def insertAll (members further : Members α) : Members α :=
  further.foldl (fun done m => insert m.1 m.2 done) members

@[simp] theorem get?_nil (name : String) : get? ([] : Members α) name = none := rfl

theorem get?_concat (members : Members α) (m : String × α) (name : String) :
    get? (members ++ [m]) name = if m.1 = name then some m.2 else get? members name :=
  List.foldl_concat ..

theorem get?_cons (m : String × α) (members : Members α) (name : String) :
    get? (m :: members) name =
      (get? members name).or (if m.1 = name then some m.2 else none) := by
  induction members using List.reverseRecOn with
  | nil => simp [get?]
  | append_singleton members last ih =>
    rw [← List.cons_append, get?_concat, get?_concat, ih]
    split <;> simp

theorem get?_append (a b : Members α) (name : String) :
    get? (a ++ b) name = (get? b name).or (get? a name) := by
  induction b using List.reverseRecOn with
  | nil => simp
  | append_singleton b m ih =>
    rw [← List.append_assoc, get?_concat, get?_concat, ih]
    split <;> simp

theorem get?_eq_none_iff (members : Members α) (name : String) :
    get? members name = none ↔ name ∉ names members := by
  induction members with
  | nil => simp [names]
  | cons m members ih =>
    rw [get?_cons, Option.or_eq_none_iff, ih]
    by_cases h : m.1 = name
    · simp [names, h]
    · simp [names, h, Ne.symm h]

theorem mem_of_get?_eq_some {members : Members α} {name : String} {value : α}
    (h : get? members name = some value) : (name, value) ∈ members := by
  induction members with
  | nil => simp at h
  | cons m members ih =>
    rw [get?_cons, Option.or_eq_some_iff] at h
    rcases h with h | ⟨_, h⟩
    · exact List.mem_cons_of_mem _ (ih h)
    · obtain ⟨rfl, rfl⟩ : m.1 = name ∧ m.2 = value := by simpa using h
      exact List.mem_cons_self ..

/-- Without repeated names every member is found under its name. -/
theorem get?_eq_some_iff {members : Members α} (hnodup : (names members).Nodup) (name : String)
    (value : α) : get? members name = some value ↔ (name, value) ∈ members := by
  constructor
  · exact mem_of_get?_eq_some
  · intro hmem
    induction members with
    | nil => simp at hmem
    | cons m members ih =>
      obtain ⟨hnew, hrest⟩ := List.nodup_cons.mp hnodup
      rw [get?_cons]
      rcases List.mem_cons.mp hmem with rfl | hmem
      · simp [(get?_eq_none_iff members name).mpr hnew]
      · simp [ih hrest hmem]

theorem get?_filter {members : Members α} (hnodup : (names members).Nodup)
    (p : String × α → Bool) {m : String × α} (hm : m ∈ members) :
    get? (members.filter p) m.1 = if p m then some m.2 else none := by
  have hfiltered : (names (members.filter p)).Nodup :=
    hnodup.sublist (List.filter_sublist.map Prod.fst)
  by_cases hp : p m
  · rw [if_pos hp]
    exact (get?_eq_some_iff hfiltered m.1 m.2).mpr (List.mem_filter.mpr ⟨hm, hp⟩)
  · rw [if_neg hp, get?_eq_none_iff]
    intro hmem
    obtain ⟨other, hother, heq⟩ := List.mem_map.mp hmem
    obtain ⟨hmem, hkept⟩ := List.mem_filter.mp hother
    have hsame := (get?_eq_some_iff hnodup m.1 m.2).mpr hm
    rw [← heq, (get?_eq_some_iff hnodup other.1 other.2).mpr hmem] at hsame
    exact hp (Prod.ext heq (Option.some.inj hsame) ▸ hkept)

theorem get?_map (f : α → β) (members : Members α) (name : String) :
    get? (members.map fun m => (m.1, f m.2)) name = (get? members name).map f := by
  induction members using List.reverseRecOn with
  | nil => rfl
  | append_singleton members m ih =>
    rw [List.map_append, List.map_singleton, get?_concat, get?_concat, ih]
    split <;> rfl

theorem Sorted.nodup_names {members : Members α} (h : Sorted members) : (names members).Nodup :=
  List.pairwise_map.mpr (h.imp fun hlt => ne_of_lt hlt)

/-- Sorted members are determined by what is found under each name. -/
theorem Sorted.ext {a b : Members α} (ha : Sorted a) (hb : Sorted b)
    (h : ∀ name, get? a name = get? b name) : a = b := by
  have : Std.Asymm fun x y : String × α => x.1 < y.1 := ⟨fun _ _ => lt_asymm⟩
  have : Std.Irrefl fun x y : String × α => x.1 < y.1 := ⟨fun x => lt_irrefl x.1⟩
  apply List.Pairwise.eq_of_mem_iff ha hb
  rintro ⟨name, value⟩
  rw [← get?_eq_some_iff ha.nodup_names, ← get?_eq_some_iff hb.nodup_names, h]

theorem mem_insert {name : String} {value : α} {members : Members α} {m : String × α}
    (h : m ∈ insert name value members) : m = (name, value) ∨ m ∈ members := by
  induction members with
  | nil => simpa [insert] using h
  | cons held members ih =>
    simp only [insert] at h
    split at h
    · grind
    · split at h <;> grind

theorem sorted_insert {members : Members α} (h : Sorted members) (name : String) (value : α) :
    Sorted (insert name value members) := by
  induction members with
  | nil => exact List.pairwise_singleton ..
  | cons held members ih =>
    obtain ⟨hhead, hrest⟩ := List.pairwise_cons.mp h
    simp only [insert]
    split
    · next heq => exact List.pairwise_cons.mpr ⟨fun m hm => heq ▸ hhead m hm, hrest⟩
    · next hne =>
      split
      · next hlt =>
        refine List.pairwise_cons.mpr ⟨fun m hm => ?_, h⟩
        rcases List.mem_cons.mp hm with rfl | hm
        · exact hlt
        · exact lt_trans hlt (hhead m hm)
      · next hle =>
        refine List.pairwise_cons.mpr ⟨fun m hm => ?_, ih hrest⟩
        rcases mem_insert hm with rfl | hm
        · exact lt_of_le_of_ne (not_lt.mp hle) (Ne.symm hne)
        · exact hhead m hm

theorem get?_insert {members : Members α} (h : Sorted members) (name : String) (value : α)
    (other : String) :
    get? (insert name value members) other =
      if name = other then some value else get? members other := by
  induction members with
  | nil => simp [insert, get?_cons]
  | cons held members ih =>
    obtain ⟨hhead, hrest⟩ := List.pairwise_cons.mp h
    have hfirst : get? members held.1 = none := by
      rw [get?_eq_none_iff]
      intro hmem
      obtain ⟨m, hm, heq⟩ := List.mem_map.mp hmem
      exact ne_of_gt (hhead m hm) heq
    simp only [insert]
    split
    · next heq =>
      subst heq
      by_cases ho : held.1 = other
      · subst ho
        simp [get?_cons, hfirst]
      · simp [get?_cons, ho]
    · next hne =>
      split
      · next hlt =>
        have hnone : get? (held :: members) name = none := by
          rw [get?_eq_none_iff]
          intro hmem
          obtain ⟨m, hm, heq⟩ := List.mem_map.mp hmem
          rcases List.mem_cons.mp hm with rfl | hm
          · exact hne heq.symm
          · exact lt_asymm hlt (heq ▸ hhead m hm)
        rw [get?_cons]
        split
        · next ho => simp [← ho, hnone]
        · simp
      · rw [get?_cons, get?_cons, ih hrest]
        split
        · simp
        · rfl

theorem insertAll_concat (members further : Members α) (m : String × α) :
    insertAll members (further ++ [m]) = insert m.1 m.2 (insertAll members further) :=
  List.foldl_concat ..

theorem sorted_insertAll {members : Members α} (h : Sorted members) (further : Members α) :
    Sorted (insertAll members further) := by
  induction further using List.reverseRecOn with
  | nil => exact h
  | append_singleton further m ih =>
    rw [insertAll_concat]
    exact sorted_insert ih m.1 m.2

/-- A later member counts before an earlier one. -/
theorem get?_insertAll {members : Members α} (h : Sorted members) (further : Members α)
    (name : String) :
    get? (insertAll members further) name = (get? further name).or (get? members name) := by
  induction further using List.reverseRecOn with
  | nil => rfl
  | append_singleton further m ih =>
    rw [insertAll_concat, get?_insert (sorted_insertAll h further), get?_concat, ih]
    split <;> simp

theorem Sorted.map {members : Members α} (h : Sorted members) (f : α → β) :
    Sorted (members.map fun m => (m.1, f m.2)) :=
  List.pairwise_map.mpr h

theorem sorted_nil : Sorted ([] : Members α) := List.Pairwise.nil

theorem sorted_ordered (members : Members α) : Sorted (ordered members) :=
  sorted_insertAll sorted_nil members

@[simp] theorem get?_ordered (members : Members α) (name : String) :
    get? (ordered members) name = get? members name := by
  have h := get?_insertAll sorted_nil members name
  rwa [get?_nil, Option.or_none] at h

theorem mem_ordered {members : Members α} {m : String × α} (h : m ∈ ordered members) :
    m ∈ members := by
  have hget := (get?_eq_some_iff (sorted_ordered members).nodup_names m.1 m.2).mpr h
  rw [get?_ordered] at hget
  exact mem_of_get?_eq_some hget

theorem Sorted.ordered_eq {members : Members α} (h : Sorted members) : ordered members = members :=
  (sorted_ordered members).ext h fun name => get?_ordered members name

/-- Members that cover all the names held before leave nothing of them. -/
theorem Sorted.insertAll_eq {members further : Members α} (h : Sorted members)
    (hfurther : Sorted further) (hcover : names members ⊆ names further) :
    insertAll members further = further := by
  apply (sorted_insertAll h further).ext hfurther
  intro name
  rw [get?_insertAll h]
  cases hf : get? further name with
  | some value => rfl
  | none =>
    have hnot : name ∉ names members := fun hmem =>
      (get?_eq_none_iff further name).mp hf (hcover hmem)
    rw [(get?_eq_none_iff members name).mpr hnot]
    rfl

/-- A pair that is set from two names holds what is found under each, and what it held where nothing
is. -/
theorem foldl_pair {σ γ : Type} (make : β → γ → σ) {step : σ → String × α → σ} (a b : String)
    (hne : a ≠ b) (f : α → β) (g : α → γ) (hstep : ∀ x y m, step (make x y) m =
      if m.1 = a then make (f m.2) y else if m.1 = b then make x (g m.2) else make x y)
    (members : Members α) (x : β) (y : γ) :
    members.foldl step (make x y) =
      make (((get? members a).map f).getD x) (((get? members b).map g).getD y) := by
  induction members using List.reverseRecOn with
  | nil => rfl
  | append_singleton members m ih =>
    rw [List.foldl_concat, ih, hstep, get?_concat, get?_concat]
    by_cases ha : m.1 = a
    · have hb : m.1 ≠ b := fun h => hne (ha.symm.trans h)
      rw [if_pos ha, if_pos ha, if_neg hb]
      rfl
    · rw [if_neg ha, if_neg ha]
      by_cases hb : m.1 = b
      · rw [if_pos hb, if_pos hb]
        rfl
      · rw [if_neg hb, if_neg hb]

end ResearchRecords.Json.Members
