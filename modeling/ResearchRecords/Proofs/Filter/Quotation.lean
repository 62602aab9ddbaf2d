import ResearchRecords.Filter

/-!
Quoted values. Reading a quoted value gives the value and what stands behind its quotation, whatever
that is, so a text starts with one quotation at most. The same holds of lists of such values: what
is written so that its end is known stays so when it is joined by separators.
-/
namespace ResearchRecords.Filter

theorem escape_of_special {c : Char} (h : c = '\'' ∨ c = '\\') : escape c = ['\\', c] := if_pos h

theorem escape_of_plain {c : Char} (h : ¬ (c = '\'' ∨ c = '\\')) : escape c = [c] := if_neg h

theorem unquoteRest_backslash (c : Char) (rest : List Char) :
    unquoteRest ('\\' :: c :: rest) = (unquoteRest rest).map fun r => (c :: r.1, r.2) := by
  simp only [unquoteRest]

theorem unquoteRest_plain {c : Char} (h : ¬ (c = '\'' ∨ c = '\\')) (rest : List Char) :
    unquoteRest (c :: rest) = (unquoteRest rest).map fun r => (c :: r.1, r.2) := by
  obtain ⟨hquote, hbackslash⟩ := not_or.mp h
  rw [unquoteRest]
  · exact hquote
  · intro _ _ hc _
    exact hbackslash hc

/-- What was escaped is read back, up to the apostrophe that ends it. -/
theorem unquoteRest_escaped (value rest : List Char) :
    unquoteRest (value.flatMap escape ++ '\'' :: rest) = some (value, rest) := by
  induction value with
  | nil => rw [List.flatMap_nil, List.nil_append, unquoteRest]
  | cons c value ih =>
    rw [List.flatMap_cons, List.append_assoc]
    by_cases hc : c = '\'' ∨ c = '\\'
    · rw [escape_of_special hc, List.cons_append, List.singleton_append, unquoteRest_backslash, ih]
      rfl
    · rw [escape_of_plain hc, List.singleton_append, unquoteRest_plain hc, ih]
      rfl

/-- Reading undoes quoting, and leaves what follows. -/
theorem unquote_quoteChars (value rest : List Char) :
    unquote (quoteChars value ++ rest) = some (value, rest) := by
  rw [quoteChars, List.cons_append, List.cons_append, List.append_assoc, List.singleton_append,
    unquote]
  exact unquoteRest_escaped value rest

/-- A text starts with one quotation at most. -/
theorem quoteChars_append_inj {s t u v : List Char} (h : quoteChars s ++ u = quoteChars t ++ v) :
    s = t ∧ u = v := by
  have hread := unquote_quoteChars s u
  rw [h, unquote_quoteChars] at hread
  obtain ⟨rfl, rfl⟩ := Prod.mk.inj (Option.some.inj hread)
  exact ⟨rfl, rfl⟩

/-- Items whose ends are known, joined by a separator, are known up to where none follows. -/
theorem intercalate_append_inj {α : Type} {write : α → List Char} {separator : Char}
    {xs ys : List α} (hxs : xs ≠ []) (hys : ys ≠ [])
    (hwrite : ∀ x ∈ xs, ∀ y ∈ ys, ∀ u v, write x ++ u = write y ++ v → x = y ∧ u = v)
    {u v : List Char} (hu : u.head? ≠ some separator) (hv : v.head? ≠ some separator)
    (h : [separator].intercalate (xs.map write) ++ u =
      [separator].intercalate (ys.map write) ++ v) : xs = ys ∧ u = v := by
  induction xs generalizing ys with
  | nil => exact absurd rfl hxs
  | cons x xs ih =>
    cases ys with
    | nil => exact absurd rfl hys
    | cons y ys =>
      have hfirst := hwrite x (List.mem_cons_self ..) y (List.mem_cons_self ..)
      cases xs with
      | nil =>
        cases ys with
        | nil =>
          simp only [List.map_cons, List.map_nil, List.intercalate_singleton] at h
          obtain ⟨rfl, rfl⟩ := hfirst _ _ h
          exact ⟨rfl, rfl⟩
        | cons y' ys =>
          simp only [List.map_cons, List.map_nil, List.intercalate_singleton,
            List.intercalate_cons_cons, List.append_assoc] at h
          obtain ⟨_, rfl⟩ := hfirst _ _ h
          exact absurd rfl hu
      | cons x' xs =>
        cases ys with
        | nil =>
          simp only [List.map_cons, List.map_nil, List.intercalate_singleton,
            List.intercalate_cons_cons, List.append_assoc] at h
          obtain ⟨_, rfl⟩ := hfirst _ _ h
          exact absurd rfl hv
        | cons y' ys =>
          simp only [List.map_cons, List.intercalate_cons_cons, List.append_assoc] at h
          obtain ⟨rfl, hrest⟩ := hfirst _ _ h
          have hmembers := fun x hx y hy =>
            hwrite x (List.mem_cons_of_mem _ hx) y (List.mem_cons_of_mem _ hy)
          obtain ⟨heq, rfl⟩ := ih (List.cons_ne_nil _ _) (List.cons_ne_nil _ _) hmembers
            (List.append_cancel_left hrest)
          exact ⟨congrArg (List.cons x) heq, rfl⟩

/-- A list of quoted values ends at the parenthesis behind it. -/
theorem quoteAll_append_inj {xs ys : List String} {u v : List Char}
    (h : quoteAll xs ++ ')' :: u = quoteAll ys ++ ')' :: v) : xs = ys ∧ u = v := by
  have hstart : ∀ (z : String) (zs : List String), ∃ rest, quoteAll (z :: zs) = '\'' :: rest := by
    intro z zs
    cases zs with
    | nil => exact ⟨_, rfl⟩
    | cons z' zs => exact ⟨_, rfl⟩
  cases xs with
  | nil =>
    cases ys with
    | nil => exact ⟨rfl, (List.cons.inj h).2⟩
    | cons y ys =>
      obtain ⟨rest, heq⟩ := hstart y ys
      rw [heq] at h
      exact absurd (List.cons.inj h).1 (by decide)
  | cons x xs =>
    cases ys with
    | nil =>
      obtain ⟨rest, heq⟩ := hstart x xs
      rw [heq] at h
      exact absurd (List.cons.inj h).1 (by decide)
    | cons y ys =>
      have hquoted : ∀ (a b : String) (s t : List Char),
          quoteChars a.toList ++ s = quoteChars b.toList ++ t → a = b ∧ s = t := by
        intro a b s t heq
        obtain ⟨hvalue, hrest⟩ := quoteChars_append_inj heq
        exact ⟨String.toList_inj.mp hvalue, hrest⟩
      obtain ⟨heq, hrest⟩ := intercalate_append_inj (List.cons_ne_nil _ _) (List.cons_ne_nil _ _)
        (fun a _ b _ => hquoted a b) (by simp) (by simp) h
      exact ⟨heq, (List.cons.inj hrest).2⟩

end ResearchRecords.Filter
