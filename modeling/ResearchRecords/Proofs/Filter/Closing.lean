import ResearchRecords.Proofs.Filter.Quotation

/-!
Where a quoted value ends. To read a quotation is to look for the first apostrophe that no backslash
escapes, and to drop the backslashes before it that escape. In a text that begins with a quoted
value that apostrophe is the last character of the quotation, whatever stands behind it.
-/
namespace ResearchRecords.Filter

/-- How many characters stand before the first apostrophe that no backslash escapes. -/
def insideLength? : List Char → Option Nat
  | [] => none
  | '\'' :: _ => some 0
  | '\\' :: _ :: rest => (insideLength? rest).map (· + 2)
  | _ :: rest => (insideLength? rest).map (· + 1)

/-- The place of the apostrophe that closes the quotation a text begins with. -/
def closingPlace? : List Char → Option Nat
  | '\'' :: rest => (insideLength? rest).map (· + 1)
  | _ => none

/-- A text without the backslashes that escape. -/
def unescape : List Char → List Char
  | [] => []
  | '\\' :: c :: rest => c :: unescape rest
  | c :: rest => c :: unescape rest

theorem insideLength?_lt {s : List Char} {n : Nat} (h : insideLength? s = some n) :
    n < s.length := by
  fun_induction insideLength? s generalizing n with
  | case1 => simp at h
  | case2 rest =>
    obtain rfl := Option.some.inj h
    simp
  | case3 c rest ih =>
    obtain ⟨m, hm, rfl⟩ := Option.map_eq_some_iff.mp h
    simpa using ih hm
  | case4 c rest _ _ ih =>
    obtain ⟨m, hm, rfl⟩ := Option.map_eq_some_iff.mp h
    simpa using ih hm

theorem unescape_plain {c : Char} (h : c ≠ '\\') (rest : List Char) :
    unescape (c :: rest) = c :: unescape rest := by
  rw [unescape]
  intro _ _ hc _
  exact h hc

/-- To read a quotation is to find where it closes and to unescape what stands before. -/
theorem unquoteRest_eq (s : List Char) : unquoteRest s =
    (insideLength? s).map fun n => (unescape (s.take n), s.drop (n + 1)) := by
  fun_induction insideLength? s with
  | case1 => rfl
  | case2 rest => simp [unquoteRest, unescape]
  | case3 c rest ih =>
    rw [unquoteRest_backslash, ih, Option.map_map, Option.map_map]
    rfl
  | case4 c rest hquote hescape ih =>
    by_cases hbackslash : c = '\\'
    · -- A backslash at the very end escapes nothing, and no apostrophe follows it.
      have hend : rest = [] := by
        cases rest with
        | nil => rfl
        | cons d rest => exact absurd rfl (hescape d rest hbackslash)
      subst hend
      subst hbackslash
      rfl
    · rw [unquoteRest_plain (not_or.mpr ⟨hquote, hbackslash⟩), ih, Option.map_map, Option.map_map]
      congr 1
      funext n
      simp [unescape_plain hbackslash]

/-- The apostrophe behind an escaped value is the first one that no backslash escapes. -/
theorem insideLength?_escaped (value rest : List Char) :
    insideLength? (value.flatMap escape ++ '\'' :: rest) = some (value.flatMap escape).length ∧
      unescape (value.flatMap escape) = value := by
  have hread := unquoteRest_escaped value rest
  rw [unquoteRest_eq, Option.map_eq_some_iff] at hread
  obtain ⟨n, hn, hparts⟩ := hread
  obtain ⟨hvalue, hrest⟩ := Prod.mk.inj hparts
  have hbound := insideLength?_lt hn
  have hlength := congrArg List.length hrest
  simp only [List.length_drop, List.length_append, List.length_cons] at hbound hlength
  obtain rfl : n = (value.flatMap escape).length := by omega
  rw [List.take_left] at hvalue
  exact ⟨hn, hvalue⟩

theorem toList_quote (value : String) :
    (quote value).toList = '\'' :: (value.toList.flatMap escape ++ ['\'']) := by
  rw [quote, String.toList_ofList, quoteChars, List.cons_append]

theorem length_quote (value : String) :
    (quote value).length = (value.toList.flatMap escape).length + 2 := by
  rw [← String.length_toList, toList_quote]
  simp

/-- A quoted value ends neither early nor late: a text begins with one quotation at most, whatever
follows; looking for its end leads to its last character; and unescaping what lies between gives the
value. -/
theorem quotation_closes (s t u v : String) :
    (quote s ++ u = quote t ++ v ↔ s = t ∧ u = v) ∧
      closingPlace? (quote s ++ u).toList = some ((quote s).length - 1) ∧
      unescape (((quote s ++ u).toList.take ((quote s).length - 1)).drop 1) = s.toList := by
  obtain ⟨hinside, hvalue⟩ := insideLength?_escaped s.toList u.toList
  have htext : (quote s ++ u).toList = '\'' :: (s.toList.flatMap escape ++ '\'' :: u.toList) := by
    rw [String.toList_append, toList_quote, List.cons_append, List.append_assoc,
      List.singleton_append]
  have hlast : (quote s).length - 1 = (s.toList.flatMap escape).length + 1 := by
    rw [length_quote]
    omega
  refine ⟨⟨?_, ?_⟩, ?_, ?_⟩
  · intro h
    have hchars := congrArg String.toList h
    simp only [String.toList_append, quote, String.toList_ofList] at hchars
    obtain ⟨hvalues, hrests⟩ := quoteChars_append_inj hchars
    exact ⟨String.toList_inj.mp hvalues, String.toList_inj.mp hrests⟩
  · rintro ⟨rfl, rfl⟩
    rfl
  · rw [htext, hlast, closingPlace?, hinside]
    rfl
  · rw [htext, hlast, List.take_succ_cons, List.take_left, List.drop_one, List.tail_cons, hvalue]

end ResearchRecords.Filter
