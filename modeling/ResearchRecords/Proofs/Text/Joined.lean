import Mathlib.Data.List.TakeDrop
import Mathlib.Data.List.TakeWhile

/-!
Texts joined at marks and split again. What is in a joined text is in one of its parts or is the
mark between them, and a text is split where the first mark stands.
-/
namespace ResearchRecords.Text

theorem span_append_cons {α : Type} {p : α → Bool} {front : List α} {mark : α}
    (hfront : ∀ a ∈ front, p a = true) (hmark : p mark = false) (rest : List α) :
    (front ++ mark :: rest).span p = (front, mark :: rest) := by
  rw [List.span_eq_takeWhile_dropWhile, List.takeWhile_append_of_pos hfront,
    List.dropWhile_append_of_pos hfront, List.takeWhile_cons_of_neg (by simp [hmark]),
    List.dropWhile_cons_of_neg (by simp [hmark]), List.append_nil]

theorem span_of_forall {α : Type} {p : α → Bool} {s : List α} (h : ∀ a ∈ s, p a = true) :
    s.span p = (s, []) := by
  rw [List.span_eq_takeWhile_dropWhile, List.takeWhile_eq_self_iff.mpr h,
    List.dropWhile_eq_nil_iff.mpr h]

theorem forall_mem_intercalate {α : Type} {p : α → Prop} {separator : α} (hseparator : p separator)
    {parts : List (List α)} (hparts : ∀ part ∈ parts, ∀ a ∈ part, p a) :
    ∀ a ∈ [separator].intercalate parts, p a := by
  induction parts with
  | nil => simp
  | cons part rest ih =>
    obtain ⟨hpart, hrest⟩ := List.forall_mem_cons.mp hparts
    cases rest with
    | nil => rwa [List.intercalate_singleton]
    | cons other rest =>
      rw [List.intercalate_cons_cons, List.forall_mem_append, List.forall_mem_append]
      exact ⟨⟨hpart, by simpa using hseparator⟩, ih hrest⟩

/-- The parts between separators hold no separator, and nothing that is not in the whole. -/
theorem mem_of_mem_splitOn {α : Type} [BEq α] [LawfulBEq α] {separator : α} {s part : List α}
    (h : part ∈ s.splitOn separator) {a : α} (ha : a ∈ part) : a ∈ s ∧ a ≠ separator := by
  induction s generalizing part with
  | nil =>
    rw [List.splitOn_nil, List.mem_singleton] at h
    simp [h] at ha
  | cons b s ih =>
    rw [List.splitOn_cons_eq_if_modifyHead] at h
    split at h
    · rcases List.mem_cons.mp h with rfl | h
      · simp at ha
      · exact (ih h ha).imp_left (List.mem_cons_of_mem b)
    · next hb =>
      obtain ⟨first, rest, hparts⟩ := List.exists_cons_of_ne_nil (List.splitOn_ne_nil separator s)
      rw [hparts, List.modifyHead_cons] at h
      have hlater : ∀ part ∈ first :: rest, a ∈ part → a ∈ b :: s ∧ a ≠ separator :=
        fun part hpart ha => (ih (hparts ▸ hpart) ha).imp_left (List.mem_cons_of_mem b)
      rcases List.mem_cons.mp h with rfl | h
      · rcases List.mem_cons.mp ha with rfl | ha
        · exact ⟨List.mem_cons_self .., by simpa using hb⟩
        · exact hlater first (List.mem_cons_self ..) ha
      · exact hlater part (List.mem_cons_of_mem _ h) ha

end ResearchRecords.Text
