import Mathlib.Data.List.Forall2

/-!
Results that may be faults. A chain of steps succeeds exactly if every step does, with the results
that each step has.
-/
namespace ResearchRecords.Results

variable {ε α β : Type}

@[simp] theorem bind_eq_ok (x : Except ε α) (f : α → Except ε β) (b : β) :
    x >>= f = .ok b ↔ ∃ a, x = .ok a ∧ f a = .ok b := by
  cases x with
  | error e => simp [bind, Except.bind]
  | ok a => simp [bind, Except.bind]

@[simp] theorem pure_eq_ok (a b : α) : (pure a : Except ε α) = .ok b ↔ a = b := by
  simp [pure, Except.pure]

@[simp] theorem throw_ne_ok (e : ε) (a : α) : (throw e : Except ε α) ≠ .ok a := by
  simp [throw, throwThe, MonadExceptOf.throw]

@[simp] theorem map_eq_ok (f : α → β) (x : Except ε α) (b : β) :
    f <$> x = .ok b ↔ ∃ a, x = .ok a ∧ f a = b := by
  cases x with
  | error e => simp [Functor.map, Except.map]
  | ok a => simp [Functor.map, Except.map]

@[simp] theorem mapError_eq_ok {ε' : Type} (f : ε → ε') (x : Except ε α) (a : α) :
    x.mapError f = .ok a ↔ x = .ok a := by
  cases x <;> simp [Except.mapError]

theorem eq_ok_getD {x : Except ε α} (h : x.toOption.isSome = true) (a : α) :
    x = .ok (x.toOption.getD a) := by
  cases x with
  | error fault => simp [Except.toOption] at h
  | ok b => rfl

theorem toOption_eq_some (x : Except ε α) (a : α) : x.toOption = some a ↔ x = .ok a := by
  cases x <;> simp [Except.toOption]

theorem toOption_join_eq_some (x : Except ε (Option α)) (a : α) :
    x.toOption.join = some a ↔ x = .ok (some a) := by
  cases x with
  | error e => simp [Except.toOption]
  | ok a? => cases a? <;> simp [Except.toOption]

theorem mapM_eq_ok_iff (f : α → Except ε β) (xs : List α) (ys : List β) :
    xs.mapM f = .ok ys ↔ List.Forall₂ (fun x y => f x = .ok y) xs ys := by
  induction xs generalizing ys with
  | nil => cases ys <;> simp
  | cons x xs ih =>
    rw [List.mapM_cons]
    constructor
    · intro h
      obtain ⟨y, hy, h⟩ := (bind_eq_ok ..).mp h
      obtain ⟨rest, hrest, h⟩ := (bind_eq_ok ..).mp h
      obtain rfl := (pure_eq_ok ..).mp h
      exact .cons hy ((ih rest).mp hrest)
    · intro h
      cases h with
      | cons hy hrest =>
        simp only [bind_eq_ok, pure_eq_ok]
        exact ⟨_, hy, _, (ih _).mpr hrest, rfl⟩

/-- Steps that agree on a list give the same results. -/
theorem mapM_congr {f g : α → Except ε β} {xs : List α} (h : ∀ a ∈ xs, f a = g a) :
    xs.mapM f = xs.mapM g := by
  induction xs with
  | nil => rfl
  | cons a rest ih =>
    obtain ⟨ha, hrest⟩ := List.forall_mem_cons.mp h
    rw [List.mapM_cons, List.mapM_cons, ha, ih hrest]

theorem exists_forall₂ {R : α → β → Prop} {xs : List α} (h : ∀ x ∈ xs, ∃ y, R x y) :
    ∃ ys, List.Forall₂ R xs ys := by
  induction xs with
  | nil => exact ⟨[], .nil⟩
  | cons x xs ih =>
    obtain ⟨⟨y, hy⟩, hrest⟩ := List.forall_mem_cons.mp h
    obtain ⟨ys, hys⟩ := ih hrest
    exact ⟨y :: ys, .cons hy hys⟩

theorem exists_mem_of_forall₂ {R : α → β → Prop} {xs : List α} {ys : List β}
    (h : List.Forall₂ R xs ys) {x : α} (hx : x ∈ xs) : ∃ y ∈ ys, R x y := by
  induction h with
  | nil => simp at hx
  | @cons a b xs ys hab _ ih =>
    rcases List.mem_cons.mp hx with rfl | hx
    · exact ⟨b, List.mem_cons_self .., hab⟩
    · obtain ⟨y, hy, hxy⟩ := ih hx
      exact ⟨y, List.mem_cons_of_mem _ hy, hxy⟩

theorem exists_mapM_iff {f : α → Except ε β} {xs : List α} :
    (∃ ys, xs.mapM f = .ok ys) ↔ ∀ x ∈ xs, ∃ y, f x = .ok y := by
  constructor
  · rintro ⟨ys, h⟩ x hx
    obtain ⟨y, _, hy⟩ := exists_mem_of_forall₂ ((mapM_eq_ok_iff ..).mp h) hx
    exact ⟨y, hy⟩
  · intro h
    obtain ⟨ys, hys⟩ := exists_forall₂ h
    exact ⟨ys, (mapM_eq_ok_iff ..).mpr hys⟩

/-- Relations between lists, item by item, are put together over the list between them. -/
theorem forall₂_comp {γ : Type} {R : α → β → Prop} {S : β → γ → Prop} {xs : List α} {ys : List β}
    {zs : List γ} (hR : List.Forall₂ R xs ys) (hS : List.Forall₂ S ys zs) :
    List.Forall₂ (fun x z => ∃ y, R x y ∧ S y z) xs zs := by
  induction hR generalizing zs with
  | nil =>
    cases hS
    exact .nil
  | cons hxy _ ih =>
    cases hS with
    | cons hyz hrest => exact .cons ⟨_, hxy, hyz⟩ (ih hrest)

/-- A step that succeeds with a known result everywhere is a map. -/
theorem mapM_eq_map {f : α → Except ε β} {g : α → β} {xs : List α} {ys : List β}
    (h : xs.mapM f = .ok ys) (hg : ∀ x ∈ xs, ∀ y, f x = .ok y → y = g x) : ys = xs.map g := by
  rw [mapM_eq_ok_iff] at h
  induction h with
  | nil => rfl
  | cons hxy _ ih =>
    obtain ⟨hx, hrest⟩ := List.forall_mem_cons.mp hg
    rw [List.map_cons, hx _ hxy, ih hrest]

theorem mapM_of_forall {f : α → Except ε β} {g : α → β} {xs : List α}
    (h : ∀ x ∈ xs, f x = .ok (g x)) : xs.mapM f = .ok (xs.map g) := by
  rw [mapM_eq_ok_iff, List.forall₂_map_right_iff, List.forall₂_same]
  exact h

/-- What the step of every member keeps is kept by all of them together. -/
theorem foldlM_invariant_of_mem {f : β → α → Except ε β} (keeps : β → Prop) {xs : List α}
    (hstep : ∀ a ∈ xs, ∀ before after, f before a = .ok after → keeps before → keeps after)
    {start final : β} (h : xs.foldlM f start = .ok final) (hstart : keeps start) :
    keeps final := by
  induction xs generalizing start with
  | nil => exact (pure_eq_ok ..).mp h ▸ hstart
  | cons a rest ih =>
    rw [List.foldlM_cons, bind_eq_ok] at h
    obtain ⟨next, hnext, hrest⟩ := h
    obtain ⟨hfirst, hlater⟩ := List.forall_mem_cons.mp hstep
    exact ih hlater hrest (hfirst start next hnext hstart)

/-- What every step keeps is kept by all of them together. -/
theorem foldlM_invariant {f : β → α → Except ε β} (keeps : β → Prop)
    (hstep : ∀ before a after, f before a = .ok after → keeps before → keeps after) {xs : List α}
    {start final : β} (h : xs.foldlM f start = .ok final) (hstart : keeps start) :
    keeps final :=
  foldlM_invariant_of_mem keeps (fun a _ before after => hstep before a after) h hstart

/-- Steps that agree on the arguments of a chain give the same result. -/
theorem foldlM_congr {f g : β → α → Except ε β} {xs : List α}
    (h : ∀ b, ∀ a ∈ xs, f b a = g b a) (start : β) : xs.foldlM f start = xs.foldlM g start := by
  induction xs generalizing start with
  | nil => rfl
  | cons a rest ih =>
    rw [List.foldlM_cons, List.foldlM_cons, h start a (List.mem_cons_self ..)]
    congr 1
    funext next
    exact ih (fun b a ha => h b a (List.mem_cons_of_mem _ ha)) next

/-- Where it depends on the arguments alone which steps succeed, a chain does if all its steps do. -/
theorem exists_foldlM_iff {f : β → α → Except ε β} {p : α → Prop}
    (hf : ∀ b a, (∃ c, f b a = .ok c) ↔ p a) {xs : List α} (start : β) :
    (∃ final, xs.foldlM f start = .ok final) ↔ ∀ a ∈ xs, p a := by
  induction xs generalizing start with
  | nil => simp
  | cons a rest ih =>
    simp only [List.foldlM_cons, bind_eq_ok, List.forall_mem_cons, ← hf start a]
    constructor
    · rintro ⟨final, next, hnext, hrest⟩
      exact ⟨⟨next, hnext⟩, (ih next).mp ⟨final, hrest⟩⟩
    · rintro ⟨⟨next, hnext⟩, hrest⟩
      obtain ⟨final, hfinal⟩ := (ih next).mpr hrest
      exact ⟨final, next, hnext, hfinal⟩

theorem bind_eq_error (x : Except ε α) (f : α → Except ε β) (e : ε) :
    x >>= f = .error e ↔ x = .error e ∨ ∃ a, x = .ok a ∧ f a = .error e := by
  cases x with
  | error fault => simp [bind, Except.bind]
  | ok a => simp [bind, Except.bind]

theorem map_eq_error (f : α → β) (x : Except ε α) (e : ε) :
    f <$> x = .error e ↔ x = .error e := by
  cases x with
  | error fault => simp [Functor.map, Except.map]
  | ok a => simp [Functor.map, Except.map]

theorem mapError_eq_error {ε' : Type} (f : ε → ε') (x : Except ε α) (e : ε') :
    x.mapError f = .error e ↔ ∃ fault, x = .error fault ∧ f fault = e := by
  cases x <;> simp [Except.mapError]

theorem pure_ne_error (a : α) (e : ε) : (pure a : Except ε α) ≠ .error e := by
  simp [pure, Except.pure]

theorem exists_error_iff (x : Except ε α) : (∃ e, x = .error e) ↔ ¬ ∃ a, x = .ok a := by
  cases x <;> simp

theorem exists_of_mapM_eq_error {f : α → Except ε β} {xs : List α} {e : ε}
    (h : xs.mapM f = .error e) : ∃ a ∈ xs, f a = .error e := by
  induction xs with
  | nil => exact absurd h (pure_ne_error _ e)
  | cons a rest ih =>
    rw [List.mapM_cons, bind_eq_error] at h
    rcases h with h | ⟨b, _, h⟩
    · exact ⟨a, List.mem_cons_self .., h⟩
    · rcases (bind_eq_error ..).mp h with h | ⟨bs, _, h⟩
      · obtain ⟨c, hc, h⟩ := ih h
        exact ⟨c, List.mem_cons_of_mem _ hc, h⟩
      · exact absurd h (pure_ne_error _ e)

theorem exists_of_foldlM_eq_error {f : β → α → Except ε β} {xs : List α} {start : β} {e : ε}
    (h : xs.foldlM f start = .error e) : ∃ a ∈ xs, ∃ before, f before a = .error e := by
  induction xs generalizing start with
  | nil => exact absurd h (pure_ne_error _ e)
  | cons a rest ih =>
    rw [List.foldlM_cons, bind_eq_error] at h
    rcases h with h | ⟨next, _, h⟩
    · exact ⟨a, List.mem_cons_self .., start, h⟩
    · obtain ⟨c, hc, hfails⟩ := ih h
      exact ⟨c, List.mem_cons_of_mem _ hc, hfails⟩

end ResearchRecords.Results
