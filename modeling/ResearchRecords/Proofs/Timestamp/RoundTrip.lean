import Mathlib.Algebra.Group.Nat.Defs
import ResearchRecords.Proofs.Results
import ResearchRecords.Proofs.Text.Blanks
import ResearchRecords.Timestamp.Text

/-!
A timestamp is read back from its own text. Every field is written with digits that end where the
field ends, so each reader takes just the digits of its field and leaves the rest.
-/
namespace ResearchRecords.Timestamp

open Calendar
open Results (bind_eq_ok)
open Text (isDigit digitValue digitsValue isBlank isBlank_of_isDigit dropBlanks dropBlanks_cons)

/-- A rest that does not go on with digits. -/
def Ends (rest : List Char) : Prop := rest.takeWhile isDigit = []

theorem ends_cons {c : Char} (h : isDigit c = false) (rest : List Char) : Ends (c :: rest) := by
  rw [Ends, List.takeWhile_cons, h]
  rfl

theorem isDigit_of_char {c : Char} (h : c.isDigit = true) : isDigit c = true := by
  simpa [Char.isDigit, isDigit, Char.le_def] using h

theorem digitsValue_eq (digits : List Char) :
    digitsValue digits = Nat.ofDigitChars 10 digits 0 := by
  have hstep : (fun n c => n * 10 + digitValue c) =
      fun n (c : Char) => 10 * n + (c.toNat - '0'.toNat) := by
    funext n c
    rw [digitValue, Nat.mul_comm]
  rw [digitsValue, hstep, Nat.ofDigitChars_eq_foldl]

theorem digitsValue_padded (width n : Nat) : digitsValue (padded width n) = n := by
  rw [digitsValue_eq, padded, Nat.ofDigitChars_append, Nat.ofDigitChars_replicate_zero,
    Nat.mul_zero, Nat.ofDigitChars_ten_toDigits]

theorem isDigit_of_mem_padded {width n : Nat} {c : Char} (h : c ∈ padded width n) :
    isDigit c = true := by
  rcases List.mem_append.mp h with h | h
  · rw [List.eq_of_mem_replicate h]
    decide
  · exact isDigit_of_char (Nat.isDigit_of_mem_toDigits (by decide) (by decide) h)

theorem exists_padded_eq_cons (width n : Nat) : ∃ c rest, padded width n = c :: rest := by
  apply List.exists_cons_of_ne_nil
  intro h
  exact Nat.toDigits_ne_nil (List.append_eq_nil_iff.mp h).2

theorem length_padded {width n : Nat} (hpos : 0 < width) (h : n < 10 ^ width) :
    (padded width n).length = width := by
  have := (Nat.length_toDigits_le_iff (by decide : 1 < 10) hpos).mpr h
  simp only [padded, List.length_append, List.length_replicate]
  omega

theorem dropBlanks_padded (width n : Nat) (rest : List Char) :
    dropBlanks (padded width n ++ rest) = padded width n ++ rest := by
  obtain ⟨c, digits, h⟩ := exists_padded_eq_cons width n
  have hc : isDigit c = true := isDigit_of_mem_padded (h ▸ List.mem_cons_self ..)
  rw [h, List.cons_append, dropBlanks_cons (isBlank_of_isDigit hc)]

theorem takeWhile_take_of_ends {rest : List Char} (h : Ends rest) (n : Nat) :
    (rest.take n).takeWhile isDigit = [] := by
  cases rest with
  | nil => simp
  | cons c rest =>
    cases n with
    | zero => rfl
    | succ n =>
      rw [Ends, List.takeWhile_cons] at h
      rw [List.take_succ_cons, List.takeWhile_cons]
      cases hc : isDigit c with
      | true => simp [hc] at h
      | false => rfl

theorem number_padded {most width n : Nat} {rest : List Char}
    (hlength : (padded width n).length ≤ most) (hlt : n < 0x8000000000000000) (hends : Ends rest) :
    number most (padded width n ++ rest) = .ok (n, rest) := by
  have hdigits : ((padded width n ++ rest).take most).takeWhile isDigit = padded width n := by
    rw [List.take_append, List.take_of_length_le hlength,
      List.takeWhile_append_of_pos fun c hc => isDigit_of_mem_padded hc,
      takeWhile_take_of_ends hends, List.append_nil]
  obtain ⟨c, digits, hcons⟩ := exists_padded_eq_cons width n
  have hne : padded width n ≠ [] := by simp [hcons]
  unfold number
  simp only
  rw [hdigits, if_neg (by simp [hcons]), if_neg hne, digitsValue_padded, if_pos hlt,
    List.drop_left]

theorem field_padded {low high n : Nat} {rest : List Char} (hlow : low ≤ n) (hhigh : n ≤ high)
    (hlt : n < 100) (hends : Ends rest) : field low high (padded 2 n ++ rest) = .ok (n, rest) := by
  have hlength := length_padded (show 0 < 2 by decide) (show n < 10 ^ 2 by omega)
  rw [field, dropBlanks_padded, number_padded (Nat.le_of_eq hlength) (by omega) hends]
  exact if_pos ⟨hlow, hhigh⟩

theorem literal_cons {c : Char} (h : isBlank c = false) (rest : List Char) :
    literal c (c :: rest) = .ok rest := by
  rw [literal, dropBlanks_cons h]
  exact if_pos rfl

theorem year_yearText {y : Int} (hlow : -262143 ≤ y) (hhigh : y ≤ 262142) {rest : List Char}
    (hends : Ends rest) : year (yearText y ++ rest) = .ok (y, rest) := by
  have hrange : -0x80000000 ≤ y ∧ y < 0x80000000 := by omega
  have hsigned : ∀ width n, n < 0x8000000000000000 →
      number (padded width n ++ rest).length (padded width n ++ rest) = .ok (n, rest) :=
    fun width n hn => number_padded (by simp) hn hends
  unfold yearText
  split
  · next hplain =>
    have hlength := length_padded (show 0 < 4 by decide) (show y.toNat < 10 ^ 4 by omega)
    obtain ⟨c, digits, hcons⟩ := exists_padded_eq_cons 4 y.toNat
    have hc : isDigit c = true := isDigit_of_mem_padded (hcons ▸ List.mem_cons_self ..)
    have hnumber : number 4 (padded 4 y.toNat ++ rest) = .ok (y.toNat, rest) :=
      number_padded (Nat.le_of_eq hlength) (by omega) hends
    rw [year, dropBlanks_padded]
    split
    · next heq =>
      rw [hcons, List.cons_append] at heq
      rw [(List.cons.inj heq).1] at hc
      exact absurd hc (by decide)
    · next heq =>
      rw [hcons, List.cons_append] at heq
      rw [(List.cons.inj heq).1] at hc
      exact absurd hc (by decide)
    · refine (bind_eq_ok ..).mpr ⟨_, hnumber, (bind_eq_ok ..).mpr ⟨_, rfl, ?_⟩⟩
      simp only [Int.toNat_of_nonneg hplain.1]
      exact if_pos hrange
  · next hsign =>
    by_cases hneg : y < 0
    · rw [if_pos hneg, List.cons_append, year, dropBlanks_cons (by decide)]
      refine (bind_eq_ok ..).mpr
        ⟨_, hsigned 4 y.natAbs (by omega), (bind_eq_ok ..).mpr ⟨_, rfl, ?_⟩⟩
      simp only [show -(y.natAbs : Int) = y by omega]
      exact if_pos hrange
    · rw [if_neg hneg, List.cons_append, year, dropBlanks_cons (by decide)]
      refine (bind_eq_ok ..).mpr
        ⟨_, hsigned 4 y.natAbs (by omega), (bind_eq_ok ..).mpr ⟨_, rfl, ?_⟩⟩
      simp only [show (y.natAbs : Int) = y by omega]
      exact if_pos hrange

/-- A fraction of so many digits. -/
theorem fraction_padded {width n : Nat} (hpos : 0 < width) (hwidth : width ≤ 9)
    (h : n < 10 ^ width) :
    fraction ('.' :: padded width n ++ ['Z']) = .ok (n * 10 ^ (9 - width), ['Z']) := by
  have hlength := length_padded hpos h
  have hlt : n < 10 ^ 9 := Nat.lt_of_lt_of_le h (Nat.pow_le_pow_right (by decide) hwidth)
  have hnumber : number 9 (padded width n ++ ['Z']) = .ok (n, ['Z']) :=
    number_padded (hlength.symm ▸ hwidth) (by omega) (ends_cons (by decide) [])
  have hread : (padded width n ++ ['Z']).length - ['Z'].length = width := by simp [hlength]
  rw [List.cons_append, fraction]
  refine (bind_eq_ok ..).mpr ⟨(n, ['Z']), hnumber, ?_⟩
  simp only [hread]
  rfl

theorem fraction_fractionText {n : Nat} (h : n < 1000000000) :
    fraction (fractionText n ++ ['Z']) = .ok (n, ['Z']) := by
  unfold fractionText
  split
  · next hzero =>
    subst hzero
    rfl
  · split
    · next hmillis =>
      rw [fraction_padded (by decide) (by decide) (show n / 1000000 < 10 ^ 3 by omega)]
      rw [show n / 1000000 * 10 ^ (9 - 3) = n by omega]
    · split
      · next hmicros =>
        rw [fraction_padded (by decide) (by decide) (show n / 1000 < 10 ^ 6 by omega)]
        rw [show n / 1000 * 10 ^ (9 - 6) = n by omega]
      · rw [fraction_padded (by decide) (by decide) (show n < 10 ^ 9 by omega)]
        rw [show n * 10 ^ (9 - 9) = n by omega]

theorem ends_fractionText (n : Nat) : Ends (fractionText n ++ ['Z']) := by
  unfold fractionText
  split
  · exact ends_cons (by decide) []
  · split
    · exact ends_cons (by decide) _
    · split
      · exact ends_cons (by decide) _
      · exact ends_cons (by decide) _

theorem ofLocal_zero (t : Timestamp) :
    ofLocal t.date t.hour t.minute t.second t.nanosecond 0 = .ok t := by
  have hhour := t.hour_lt
  have hminute := t.minute_lt
  have hday : ((((t.hour * 60 + t.minute : Nat) : Int) - 0) % 1440).toNat =
      t.hour * 60 + t.minute := by omega
  unfold ofLocal
  simp only
  rw [if_neg (by omega), if_neg (by omega), hday,
    show (t.hour * 60 + t.minute) / 60 = t.hour by omega,
    show (t.hour * 60 + t.minute) % 60 = t.minute by omega, ofFields?_eq]

theorem le_of_isValid {d : Date} (h : d.isValid = true) :
    (-262143 ≤ d.year ∧ d.year ≤ 262142) ∧ (1 ≤ d.month ∧ d.month ≤ 12) ∧ 1 ≤ d.day ∧
      d.day ≤ 31 := by
  simp only [Date.isValid, Bool.and_eq_true, decide_eq_true_eq] at h
  obtain ⟨⟨⟨⟨⟨hlow, hhigh⟩, hfirst⟩, hlast⟩, hone⟩, hday⟩ := h
  have : daysInMonth d.year d.month ≤ 31 := by
    unfold daysInMonth
    split
    · split <;> omega
    all_goals omega
  omega

/-- A timestamp is read back from its text. -/
theorem parse_text (t : Timestamp) : parse t.text = .ok t := by
  obtain ⟨⟨hyearLow, hyearHigh⟩, ⟨hmonthLow, hmonthHigh⟩, hdayLow, hdayHigh⟩ :=
    le_of_isValid t.date_valid
  have hhour := t.hour_lt
  have hminute := t.minute_lt
  have hsecond := t.second_le
  have hchars : t.text.toList = yearText t.date.year ++ '-' :: (padded 2 t.date.month ++
      '-' :: (padded 2 t.date.day ++ 'T' :: (padded 2 t.hour ++ ':' :: (padded 2 t.minute ++
      ':' :: (padded 2 t.second ++ (fractionText t.nanosecond ++ ['Z'])))))) := by
    simp [text, chars]
  have hdash : ∀ rest, Ends ('-' :: rest) := ends_cons (by decide)
  have hcolon : ∀ rest, Ends (':' :: rest) := ends_cons (by decide)
  rw [parse, hchars, parseChars]
  refine (bind_eq_ok ..).mpr ⟨_, year_yearText hyearLow hyearHigh (hdash _), ?_⟩
  refine (bind_eq_ok ..).mpr ⟨_, literal_cons (by decide) _, ?_⟩
  refine (bind_eq_ok ..).mpr ⟨_, field_padded hmonthLow hmonthHigh (by omega) (hdash _), ?_⟩
  refine (bind_eq_ok ..).mpr ⟨_, literal_cons (by decide) _, ?_⟩
  refine (bind_eq_ok ..).mpr
    ⟨_, field_padded hdayLow hdayHigh (by omega) (ends_cons (by decide) _), ?_⟩
  refine (bind_eq_ok ..).mpr ⟨_, rfl, ?_⟩
  refine (bind_eq_ok ..).mpr
    ⟨_, field_padded (Nat.zero_le _) (by omega) (by omega) (hcolon _), ?_⟩
  refine (bind_eq_ok ..).mpr ⟨_, literal_cons (by decide) _, ?_⟩
  refine (bind_eq_ok ..).mpr
    ⟨_, field_padded (Nat.zero_le _) (by omega) (by omega) (hcolon _), ?_⟩
  refine (bind_eq_ok ..).mpr ⟨_, literal_cons (by decide) _, ?_⟩
  refine (bind_eq_ok ..).mpr
    ⟨_, field_padded (Nat.zero_le _) hsecond (by omega) (ends_fractionText _), ?_⟩
  refine (bind_eq_ok ..).mpr ⟨_, fraction_fractionText t.nanosecond_lt, ?_⟩
  refine (bind_eq_ok ..).mpr ⟨(0, []), rfl, ?_⟩
  have hvalid := t.date_valid
  have hlocal := ofLocal_zero t
  simp [dropBlanks, hvalid, hlocal]

end ResearchRecords.Timestamp
