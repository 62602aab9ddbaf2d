import ResearchRecords.Text.Blank
import ResearchRecords.Text.Decimal

/-!
Blanks around texts. What has no blank is kept when blanks are dropped; so is a number, which has
none.
-/
namespace ResearchRecords.Text

theorem isBlank_of_isDigit {c : Char} (h : isDigit c = true) : isBlank c = false := by
  simp only [isDigit, Bool.and_eq_true, decide_eq_true_eq, Char.le_def] at h
  have hlow : 48 ≤ c.toNat := h.1
  have hhigh : c.toNat ≤ 57 := h.2
  simp only [isBlank, Bool.or_eq_false_iff, Bool.and_eq_false_iff, decide_eq_false_iff_not,
    beq_eq_false_iff_ne]
  omega

theorem dropBlanks_cons {c : Char} (h : isBlank c = false) (rest : List Char) :
    dropBlanks (c :: rest) = c :: rest := by
  rw [dropBlanks, List.dropWhile_cons, h]
  rfl

theorem dropBlanks_of_forall {s : List Char} (h : ∀ c ∈ s, isBlank c = false) :
    dropBlanks s = s := by
  cases s with
  | nil => rfl
  | cons c rest => exact dropBlanks_cons (h c (List.mem_cons_self ..)) rest

theorem trim_of_forall {s : String} (h : ∀ c ∈ s.toList, isBlank c = false) : trim s = s := by
  have hreverse : ∀ c ∈ s.toList.reverse, isBlank c = false := fun c hc =>
    h c (List.mem_reverse.mp hc)
  rw [trim, trimChars, dropBlanks_of_forall h, dropBlanks_of_forall hreverse, List.reverse_reverse,
    String.ofList_toList]

/-- A number has no blanks around it. -/
theorem trim_of_natural64? {s : String} (h : (natural64? s).isSome = true) : trim s = s := by
  have hdigits : (dropPlus s.toList).all isDigit = true := by
    cases hall : (dropPlus s.toList).all isDigit with
    | true => rfl
    | false =>
      rw [natural64?, if_pos (.inr (by rw [hall]; rfl))] at h
      cases h
  refine trim_of_forall fun c hc => ?_
  have hmem : c = '+' ∨ c ∈ dropPlus s.toList := by
    unfold dropPlus
    split
    next heq => simpa [heq] using hc
    next => exact .inr hc
  rcases hmem with rfl | hmem
  · rfl
  · exact isBlank_of_isDigit (List.all_eq_true.mp hdigits c hmem)

end ResearchRecords.Text
