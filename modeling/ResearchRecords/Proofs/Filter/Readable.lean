import Mathlib.Data.List.TakeWhile
import ResearchRecords.Proofs.Filter.Quotation

/-!
Filter expressions can be read in one way only. A test is a field, an operator and an argument: the
field ends where the first reserved character stands, no operator starts with another, and every
argument shows where it ends. Operands of "and" and "or" stand between parentheses, so what follows
an expression is never taken for a part of it unless it is a separator.
-/
namespace ResearchRecords.Filter

/-- Characters that the name of a field does not hold. -/
def reserved : List Char := ['\'', '"', '(', ')', ';', ',', '=', '!', '~', '<', '>', ' ']

def IsField (field : String) : Prop := ∀ c ∈ field.toList, c ∉ reserved

instance (field : String) : Decidable (IsField field) :=
  List.decidableBAll (fun c => c ∉ reserved) field.toList

/-- What stands between a field and the values it is tested for. -/
inductive Operator
  | compare (comparison : Comparison)
  | among
  | outside
  | isNull
  deriving DecidableEq

def Operator.chars : Operator → List Char
  | compare comparison => comparison.operator
  | among => "=in=(".toList
  | outside => "=out=(".toList
  | isNull => "=isnull=".toList

/-- An expression that tests a field, with its operator and the text behind it. -/
inductive Test : Filter → String → Operator → List Char → Prop
  | compare (field : String) (comparison : Comparison) (value : String) :
    Test (.compare field comparison value) field (.compare comparison) (quoteChars value.toList)
  | among (field : String) (values : List String) :
    Test (.among field values) field .among (quoteAll values ++ [')'])
  | outside (field : String) (values : List String) :
    Test (.outside field values) field .outside (quoteAll values ++ [')'])
  | isNull (field : String) (null : Bool) :
    Test (.isNull field null) field .isNull (if null then "true" else "false").toList

/-- Expressions composed of tests by "and" and "or", each with two operands or more. -/
inductive Composed : Filter → Prop
  | test {filter : Filter} {field : String} {operator : Operator} {argument : List Char}
    (h : Test filter field operator argument) (hfield : IsField field) : Composed filter
  | all {operands : List Filter} (hcount : 2 ≤ operands.length)
    (h : ∀ operand ∈ operands, Composed operand) : Composed (.all operands)
  | any {operands : List Filter} (hcount : 2 ≤ operands.length)
    (h : ∀ operand ∈ operands, Composed operand) : Composed (.any operands)

namespace Operator

def every : List Operator :=
  [.equals, .notEquals, .greater, .greaterOrEqual, .less, .lessOrEqual, .hasMember,
    .hasNoMember].map compare ++ [among, outside, isNull]

theorem mem_every (operator : Operator) : operator ∈ every := by
  cases operator with
  | compare comparison => cases comparison <;> decide
  | _ => decide

theorem eq_of_isPrefix {s t : Operator} (h : s.chars <+: t.chars) : s = t := by
  have hevery : ∀ s ∈ every, ∀ t ∈ every, s.chars <+: t.chars → s = t := by decide
  exact hevery s s.mem_every t t.mem_every h

theorem chars_append_inj {s t : Operator} {u v : List Char} (h : s.chars ++ u = t.chars ++ v) :
    s = t ∧ u = v := by
  have hs : s.chars <+: t.chars ++ v := h ▸ List.prefix_append ..
  have heq : s = t := by
    rcases List.prefix_or_prefix_of_prefix hs (List.prefix_append ..) with hst | hts
    · exact eq_of_isPrefix hst
    · exact (eq_of_isPrefix hts).symm
  subst heq
  exact ⟨rfl, List.append_cancel_left h⟩

/-- An operator starts with a reserved character that opens no parenthesis. -/
theorem exists_chars_eq (operator : Operator) :
    ∃ c rest, operator.chars = c :: rest ∧ c ∈ reserved ∧ c ≠ '(' := by
  have hevery : ∀ s ∈ every, s.chars.head?.any (fun c => c ∈ reserved ∧ c ≠ '(') = true := by
    decide
  obtain ⟨c, hhead, hc⟩ := (Option.any_eq_true ..).mp (hevery operator operator.mem_every)
  obtain ⟨rest, heq⟩ := List.head?_eq_some_iff.mp hhead
  exact ⟨c, rest, heq, of_decide_eq_true hc⟩

end Operator

theorem takeWhile_field {field : List Char} (h : ∀ c ∈ field, c ∉ reserved) {c : Char}
    (hc : c ∈ reserved) (rest : List Char) :
    (field ++ c :: rest).takeWhile (fun c => decide (c ∉ reserved)) = field := by
  rw [List.takeWhile_append_of_pos fun c hc => decide_eq_true (h c hc),
    List.takeWhile_cons_of_neg (by simpa using hc), List.append_nil]

/-- The name of a field ends where its operator starts. -/
theorem field_append_inj {f g : String} (hf : IsField f) (hg : IsField g) {s t : Operator}
    {u v : List Char} (h : f.toList ++ (s.chars ++ u) = g.toList ++ (t.chars ++ v)) :
    f = g ∧ s.chars ++ u = t.chars ++ v := by
  obtain ⟨c, srest, hs, hc, _⟩ := s.exists_chars_eq
  obtain ⟨d, trest, ht, hd, _⟩ := t.exists_chars_eq
  have hnames := congrArg (List.takeWhile fun c => decide (c ∉ reserved)) h
  rw [hs, ht, List.cons_append, List.cons_append, takeWhile_field hf hc,
    takeWhile_field hg hd] at hnames
  obtain rfl := String.toList_inj.mp hnames
  exact ⟨rfl, List.append_cancel_left h⟩

namespace Test

variable {a b : Filter} {f g : String} {s t : Operator} {x y : List Char}

theorem chars_eq (h : Test a f s x) : a.chars = f.toList ++ (s.chars ++ x) := by
  cases h with
  | compare field comparison value =>
    rw [chars, List.append_assoc]
    rfl
  | among field values =>
    rw [chars, List.append_assoc, List.append_assoc]
    rfl
  | outside field values =>
    rw [chars, List.append_assoc, List.append_assoc]
    rfl
  | isNull field null =>
    rw [chars, List.append_assoc]
    rfl

/-- Tests of one field by one operator are told apart by their arguments. -/
theorem argument_append_inj (ha : Test a f s x) (hb : Test b f s y) {u v : List Char}
    (h : x ++ u = y ++ v) : a = b ∧ u = v := by
  cases ha with
  | compare _ comparison value =>
    cases hb with
    | compare _ _ other =>
      obtain ⟨hvalue, rfl⟩ := quoteChars_append_inj h
      obtain rfl := String.toList_inj.mp hvalue
      exact ⟨rfl, rfl⟩
  | among _ values =>
    cases hb with
    | among _ others =>
      simp only [List.append_assoc, List.singleton_append] at h
      obtain ⟨rfl, rfl⟩ := quoteAll_append_inj h
      exact ⟨rfl, rfl⟩
  | outside _ values =>
    cases hb with
    | outside _ others =>
      simp only [List.append_assoc, List.singleton_append] at h
      obtain ⟨rfl, rfl⟩ := quoteAll_append_inj h
      exact ⟨rfl, rfl⟩
  | isNull _ null =>
    cases hb with
    | isNull _ other =>
      cases null <;> cases other <;> simp_all

theorem append_inj (ha : Test a f s x) (hb : Test b g t y) (hf : IsField f) (hg : IsField g)
    {u v : List Char} (h : a.chars ++ u = b.chars ++ v) : a = b ∧ u = v := by
  rw [ha.chars_eq, hb.chars_eq, List.append_assoc, List.append_assoc, List.append_assoc,
    List.append_assoc] at h
  obtain ⟨rfl, hoperator⟩ := field_append_inj hf hg h
  obtain ⟨rfl, hargument⟩ := Operator.chars_append_inj hoperator
  exact ha.argument_append_inj hb hargument

/-- A test does not start with a parenthesis. -/
theorem head?_ne (h : Test a f s x) (hf : IsField f) (u : List Char) :
    (a.chars ++ u).head? ≠ some '(' := by
  rw [h.chars_eq]
  cases hname : f.toList with
  | nil =>
    obtain ⟨c, rest, hs, _, hc⟩ := s.exists_chars_eq
    simp [hs, hc]
  | cons c rest =>
    have hc : c ∉ reserved := hf c (by simp [hname])
    have hne : c ≠ '(' := by
      rintro rfl
      exact hc (by decide)
    simp [hne]

end Test

/-- What may follow an expression. -/
def Ends (rest : List Char) : Prop := rest.head? ≠ some ';' ∧ rest.head? ≠ some ','

/-- An expression is the only one at the start of a text, up to where no operator of it follows. -/
def Unambiguous (a : Filter) : Prop :=
  ∀ b : Filter, b.Composed → ∀ u v, Ends u → Ends v → a.chars ++ u = b.chars ++ v → a = b ∧ u = v

theorem operandChars_eq (operands : List Filter) :
    operandChars operands = operands.map fun operand => parenthesize operand.chars := by
  induction operands with
  | nil => rfl
  | cons operand rest ih => rw [operandChars, List.map_cons, ih]

theorem parenthesize_append (text rest : List Char) :
    parenthesize text ++ rest = '(' :: (text ++ ')' :: rest) := by
  simp [parenthesize]

/-- A parenthesis is closed where its operand ends, whatever stands behind. -/
theorem Unambiguous.parenthesize_append_inj {a b : Filter} (ha : a.Unambiguous) (hb : b.Composed)
    {u v : List Char} (h : parenthesize a.chars ++ u = parenthesize b.chars ++ v) :
    a = b ∧ u = v := by
  rw [parenthesize_append, parenthesize_append] at h
  have hends : ∀ rest, Ends (')' :: rest) := fun rest => by simp [Ends]
  obtain ⟨rfl, hrest⟩ := ha b hb _ _ (hends u) (hends v) (List.cons.inj h).2
  exact ⟨rfl, (List.cons.inj hrest).2⟩

section Combination

variable {xs ys : List Filter} {s t : Char} {u v : List Char}

/-- The text of two operands or more, up to the separator behind the first. -/
theorem exists_intercalate_eq (h : 2 ≤ xs.length) (s : Char) : ∃ x ∈ xs, ∃ rest,
    [s].intercalate (operandChars xs) = parenthesize x.chars ++ s :: rest := by
  match xs, h with
  | x :: y :: rest, _ =>
    refine ⟨x, List.mem_cons_self .., [s].intercalate (operandChars (y :: rest)), ?_⟩
    rw [operandChars, operandChars, List.intercalate_cons_cons, List.append_assoc,
      List.singleton_append]

theorem head?_intercalate (h : 2 ≤ xs.length) (s : Char) (u : List Char) :
    ([s].intercalate (operandChars xs) ++ u).head? = some '(' := by
  obtain ⟨x, _, rest, heq⟩ := exists_intercalate_eq h s
  rw [heq, List.append_assoc, parenthesize_append]
  rfl

theorem operands_append_inj (hxs : 2 ≤ xs.length) (hys : 2 ≤ ys.length)
    (hread : ∀ x ∈ xs, x.Unambiguous) (hcomposed : ∀ y ∈ ys, y.Composed)
    (hu : u.head? ≠ some s) (hv : v.head? ≠ some s)
    (h : [s].intercalate (operandChars xs) ++ u = [t].intercalate (operandChars ys) ++ v) :
    s = t ∧ xs = ys ∧ u = v := by
  have hseparator : s = t := by
    obtain ⟨x, hx, xrest, hxtext⟩ := exists_intercalate_eq hxs s
    obtain ⟨y, hy, yrest, hytext⟩ := exists_intercalate_eq hys t
    rw [hxtext, hytext, List.append_assoc, List.append_assoc] at h
    obtain ⟨_, hrest⟩ := (hread x hx).parenthesize_append_inj (hcomposed y hy) h
    exact (List.cons.inj hrest).1
  subst hseparator
  have hne : ∀ {zs : List Filter}, 2 ≤ zs.length → zs ≠ [] := by
    rintro zs hcount rfl
    simp at hcount
  rw [operandChars_eq, operandChars_eq] at h
  exact ⟨rfl, intercalate_append_inj (hne hxs) (hne hys)
    (fun x hx y hy u v => (hread x hx).parenthesize_append_inj (hcomposed y hy)) hu hv h⟩

/-- A test is never taken for a combination, which starts with a parenthesis. -/
theorem Test.append_ne {a : Filter} {f : String} {o : Operator} {x : List Char} (h : Test a f o x)
    (hf : IsField f) (hxs : 2 ≤ xs.length) (s : Char) (u v : List Char) :
    a.chars ++ u ≠ [s].intercalate (operandChars xs) ++ v := fun heq =>
  h.head?_ne hf u ((congrArg List.head? heq).trans (head?_intercalate hxs s v))

/-- A combination is told by its separator and its operands. -/
theorem unambiguous_of_operands {a : Filter} (htext : a.chars = [s].intercalate (operandChars xs))
    (hends : ∀ rest, Ends rest → rest.head? ≠ some s) (hall : s = ';' → a = .all xs)
    (hany : s = ',' → a = .any xs) (hxs : 2 ≤ xs.length) (hread : ∀ x ∈ xs, x.Unambiguous) :
    a.Unambiguous := by
  intro b hb u v hu hv h
  rw [htext] at h
  cases hb with
  | test hb hg => exact absurd h.symm (hb.append_ne hg hxs s v u)
  | @all ys hys hoperands =>
    obtain ⟨hs, rfl, rfl⟩ :=
      operands_append_inj hxs hys hread hoperands (hends u hu) (hends v hv) h
    exact ⟨hall hs, rfl⟩
  | @any ys hys hoperands =>
    obtain ⟨hs, rfl, rfl⟩ :=
      operands_append_inj hxs hys hread hoperands (hends u hu) (hends v hv) h
    exact ⟨hany hs, rfl⟩

end Combination

/-- By induction on how the expression is composed: its operands are unambiguous, since each is
followed by a parenthesis. -/
theorem Composed.unambiguous {a : Filter} (ha : a.Composed) : a.Unambiguous := by
  induction ha with
  | test ha hf =>
    intro b hb u v _ _ h
    cases hb with
    | test hb hg => exact ha.append_inj hb hf hg h
    | all hcount _ => exact absurd h (ha.append_ne hf hcount ';' u v)
    | any hcount _ => exact absurd h (ha.append_ne hf hcount ',' u v)
  | all hcount _ ih =>
    exact unambiguous_of_operands rfl (fun _ hends => hends.1) (fun _ => rfl)
      (fun h => absurd h (by decide)) hcount ih
  | any hcount _ ih =>
    exact unambiguous_of_operands rfl (fun _ hends => hends.2) (fun h => absurd h (by decide))
      (fun _ => rfl) hcount ih

/-- Expressions with one text are one expression, whatever their values hold. -/
theorem text_eq_iff {a b : Filter} (ha : a.Composed) (hb : b.Composed) :
    a.text = b.text ↔ a = b := by
  constructor
  · intro h
    have hchars : a.chars ++ [] = b.chars ++ [] := congrArg (· ++ []) (String.ofList_inj.mp h)
    have hends : Ends [] := ⟨nofun, nofun⟩
    exact (ha.unambiguous b hb [] [] hends hends hchars).1
  · exact congrArg text

/-- An expression with a value that imitates the end of its operand and a further one. -/
def imitating : Filter :=
  .any [.all [.compare "a" .equals "1');(b=='2", .outside "c" ["\\", "'"]], .isNull "d" true]

/-- What the value of the other expression imitates. -/
def imitated : Filter :=
  .any [.all [.compare "a" .equals "1", .compare "b" .equals "2", .outside "c" ["\\", "'"]],
    .isNull "d" true]

theorem text_eq_iff_imitating :
    imitating.Composed ∧ imitated.Composed ∧ imitating.text ≠ imitated.text := by
  have hlong : (Filter.compare "a" .equals "1');(b=='2").Composed :=
    .test (.compare ..) (by decide)
  have hfirst : (Filter.compare "a" .equals "1").Composed := .test (.compare ..) (by decide)
  have hsecond : (Filter.compare "b" .equals "2").Composed := .test (.compare ..) (by decide)
  have houtside : (Filter.outside "c" ["\\", "'"]).Composed := .test (.outside ..) (by decide)
  have hnull : (Filter.isNull "d" true).Composed := .test (.isNull ..) (by decide)
  have himitating : imitating.Composed := by
    have hall : (Filter.all [_, _]).Composed := .all (by simp) (by simpa using ⟨hlong, houtside⟩)
    exact .any (by simp) (by simpa using ⟨hall, hnull⟩)
  have himitated : imitated.Composed := by
    have hall : (Filter.all [_, _, _]).Composed :=
      .all (by simp) (by simpa using ⟨hfirst, hsecond, houtside⟩)
    exact .any (by simp) (by simpa using ⟨hall, hnull⟩)
  refine ⟨himitating, himitated, ?_⟩
  rw [Ne, text_eq_iff himitating himitated]
  simp [imitating, imitated]

end ResearchRecords.Filter
