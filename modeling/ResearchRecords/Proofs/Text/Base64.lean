import ResearchRecords.Proofs.Text.Lossy
import ResearchRecords.Text.Base64
import Mathlib.Data.List.GetD

/-!
Base64 as its standard has it: each group of three bytes is a number of 24 bits, written as four
letters of six bits each; in a last group of one or two bytes the missing ones count as zeros, and
padding stands in place of the letters that hold no bit of a byte. The encoder writes just that, and
the decoder reads a text if and only if it was written so.
-/
namespace ResearchRecords.Text.Base64

def alphabet : List Char :=
  "ABCDEFGHIJKLMNOPQRSTUVWXYZabcdefghijklmnopqrstuvwxyz0123456789+/".toList

/-- The letters for a number of 24 bits, six bits each, from the highest on. -/
def letters (n : Nat) : List Char :=
  [18, 12, 6, 0].map fun place => alphabet.getD (n / 2 ^ place % 64) '='

/-- The standard form of some bytes, with padding. -/
def standard : Bytes → List Char
  | [] => []
  | [a] => (letters (a.toNat * 2 ^ 16)).take 2 ++ ['=', '=']
  | [a, b] => (letters (a.toNat * 2 ^ 16 + b.toNat * 2 ^ 8)).take 3 ++ ['=']
  | a :: b :: c :: rest =>
    letters (a.toNat * 2 ^ 16 + b.toNat * 2 ^ 8 + c.toNat) ++ standard rest

theorem getD_alphabet : ∀ n < 64, alphabet.getD n '=' = digit n := by decide

theorem digitValue?_digit : ∀ n < 64, digitValue? (digit n) = some n := by decide

theorem digit_ne_padding : ∀ n < 64, digit n ≠ '=' := by decide

theorem digitValue?_padding : digitValue? '=' = none := by decide

theorem toNat_lt_of_digitValue? {c : Char} {n : Nat} (h : digitValue? c = some n) :
    c.toNat < 123 := by
  unfold digitValue? at h
  split at h
  · next hupper => exact Nat.lt_of_le_of_lt (show c.toNat ≤ 90 from hupper.2) (by decide)
  · split at h
    · next hlower => exact Nat.lt_of_le_of_lt (show c.toNat ≤ 122 from hlower.2) (by decide)
    · split at h
      · next hdigit => exact Nat.lt_of_le_of_lt (show c.toNat ≤ 57 from hdigit.2) (by decide)
      · split at h
        · next hplus => exact hplus ▸ by decide
        · split at h
          · next hslash => exact hslash ▸ by decide
          · simp at h

/-- Only digits have values. -/
theorem digit_of_digitValue? {c : Char} {n : Nat} (h : digitValue? c = some n) :
    n < 64 ∧ c = digit n := by
  have hcodes : ∀ code < 123, ∀ value ∈ digitValue? (Char.ofNat code),
      value < 64 ∧ Char.ofNat code = digit value := by decide
  have hcode := hcodes c.toNat (toNat_lt_of_digitValue? h) n
  rw [Char.ofNat_toNat] at hcode
  exact hcode h

theorem letters_eq (n : Nat) : letters n =
    [digit (n / 2 ^ 18 % 64), digit (n / 2 ^ 12 % 64), digit (n / 2 ^ 6 % 64),
      digit (n % 64)] := by
  have hletter : ∀ m, alphabet.getD (m % 64) '=' = digit (m % 64) := fun m =>
    getD_alphabet _ (Nat.mod_lt _ (by decide))
  simp only [letters, List.map_cons, List.map_nil, hletter, Nat.pow_zero, Nat.div_one]

/-- The encoder writes the standard form. -/
theorem encodeChars_eq_standard (bytes : Bytes) : encodeChars bytes = standard bytes := by
  fun_induction encodeChars bytes with
  | case1 => rfl
  | case2 a =>
    have ha := a.toNat_lt
    have hfirst : a.toNat * 2 ^ 16 / 2 ^ 18 % 64 = a.toNat / 4 := by omega
    have hsecond : a.toNat * 2 ^ 16 / 2 ^ 12 % 64 = a.toNat % 4 * 16 := by omega
    rw [standard, letters_eq, hfirst, hsecond]
    rfl
  | case3 a b =>
    have ha := a.toNat_lt
    have hb := b.toNat_lt
    generalize hn : a.toNat * 2 ^ 16 + b.toNat * 2 ^ 8 = n
    have hfirst : n / 2 ^ 18 % 64 = a.toNat / 4 := by omega
    have hsecond : n / 2 ^ 12 % 64 = a.toNat % 4 * 16 + b.toNat / 16 := by omega
    have hthird : n / 2 ^ 6 % 64 = b.toNat % 16 * 4 := by omega
    rw [standard, hn, letters_eq, hfirst, hsecond, hthird]
    rfl
  | case4 a b c rest ih =>
    have ha := a.toNat_lt
    have hb := b.toNat_lt
    have hc := c.toNat_lt
    generalize hn : a.toNat * 2 ^ 16 + b.toNat * 2 ^ 8 + c.toNat = n
    have hfirst : n / 2 ^ 18 % 64 = a.toNat / 4 := by omega
    have hsecond : n / 2 ^ 12 % 64 = a.toNat % 4 * 16 + b.toNat / 16 := by omega
    have hthird : n / 2 ^ 6 % 64 = b.toNat % 16 * 4 + c.toNat / 64 := by omega
    have hfourth : n % 64 = c.toNat % 64 := by omega
    rw [standard, hn, letters_eq, hfirst, hsecond, hthird, hfourth, ih]
    rfl

/-- A byte that is put together from its high and its low bits. -/
theorem ofNat_eq {n : Nat} {b : UInt8} (h : n = b.toNat) : UInt8.ofNat n = b := by
  rw [h, UInt8.ofNat_toNat]

/-- Four digits of which the last is no padding. -/
theorem decodeChars?_group {p q r s : Char} {a b c d : Nat} (hp : digitValue? p = some a)
    (hq : digitValue? q = some b) (hr : digitValue? r = some c) (hs : digitValue? s = some d)
    (rest : List Char) : decodeChars? (p :: q :: r :: s :: rest) =
      (decodeChars? rest).map fun tail => UInt8.ofNat (a * 4 + b / 16) ::
        UInt8.ofNat (b % 16 * 16 + c / 4) :: UInt8.ofNat (c % 4 * 64 + d) :: tail := by
  have hpadding : s ≠ '=' := by
    rintro rfl
    rw [digitValue?_padding] at hs
    cases hs
  rw [decodeChars?, hp, hq, hr, hs]
  · cases decodeChars? rest <;> rfl
  · exact fun _ heq _ => hpadding heq
  · exact fun heq _ => hpadding heq

/-- Decoding undoes encoding. -/
theorem decodeChars?_encodeChars (bytes : Bytes) :
    decodeChars? (encodeChars bytes) = some bytes := by
  fun_induction encodeChars bytes with
  | case1 => rfl
  | case2 a =>
    have ha := a.toNat_lt
    have hbyte : UInt8.ofNat (a.toNat / 4 * 4 + a.toNat % 4 * 16 / 16) = a := ofNat_eq (by omega)
    rw [decodeChars?, digitValue?_digit _ (by omega), digitValue?_digit _ (by omega)]
    show (if a.toNat % 4 * 16 % 16 = 0 then some [UInt8.ofNat _] else none) = some [a]
    rw [if_pos (by omega), hbyte]
  | case3 a b =>
    have ha := a.toNat_lt
    have hb := b.toNat_lt
    have hfirst : UInt8.ofNat (a.toNat / 4 * 4 + (a.toNat % 4 * 16 + b.toNat / 16) / 16) = a :=
      ofNat_eq (by omega)
    have hsecond : UInt8.ofNat ((a.toNat % 4 * 16 + b.toNat / 16) % 16 * 16 +
        b.toNat % 16 * 4 / 4) = b := ofNat_eq (by omega)
    rw [decodeChars?, digitValue?_digit _ (by omega), digitValue?_digit _ (by omega),
      digitValue?_digit _ (by omega)]
    · show (if b.toNat % 16 * 4 % 4 = 0 then some [UInt8.ofNat _, UInt8.ofNat _] else none) =
        some [a, b]
      rw [if_pos (by omega), hfirst, hsecond]
    · exact digit_ne_padding _ (by omega)
  | case4 a b c rest ih =>
    have ha := a.toNat_lt
    have hb := b.toNat_lt
    have hc := c.toNat_lt
    have hfirst : UInt8.ofNat (a.toNat / 4 * 4 + (a.toNat % 4 * 16 + b.toNat / 16) / 16) = a :=
      ofNat_eq (by omega)
    have hsecond : UInt8.ofNat ((a.toNat % 4 * 16 + b.toNat / 16) % 16 * 16 +
        (b.toNat % 16 * 4 + c.toNat / 64) / 4) = b := ofNat_eq (by omega)
    have hthird : UInt8.ofNat ((b.toNat % 16 * 4 + c.toNat / 64) % 4 * 64 + c.toNat % 64) = c :=
      ofNat_eq (by omega)
    rw [decodeChars?_group (digitValue?_digit _ (by omega)) (digitValue?_digit _ (by omega))
      (digitValue?_digit _ (by omega)) (digitValue?_digit _ (by omega)), ih, Option.map_some,
      hfirst, hsecond, hthird]

/-- Only what the encoder writes is read. -/
theorem encodeChars_of_decodeChars? {s : List Char} {bytes : Bytes}
    (h : decodeChars? s = some bytes) : s = encodeChars bytes := by
  fun_induction decodeChars? s generalizing bytes with
  | case1 =>
    obtain rfl := Option.some.inj h
    rfl
  | case2 p q =>
    simp only [Option.bind_eq_bind, Option.bind_eq_some_iff] at h
    obtain ⟨a, hp, b, hq, h⟩ := h
    obtain ⟨ha, rfl⟩ := digit_of_digitValue? hp
    obtain ⟨hb, rfl⟩ := digit_of_digitValue? hq
    split at h
    · next hrest =>
      obtain rfl := Option.some.inj h
      have hbyte : (UInt8.ofNat (a * 4 + b / 16)).toNat = a * 4 + b / 16 :=
        Utf8.toNat_ofNat_byte (by omega)
      have hfirst : (a * 4 + b / 16) / 4 = a := by omega
      have hsecond : (a * 4 + b / 16) % 4 * 16 = b := by omega
      rw [encodeChars, hbyte, hfirst, hsecond]
    · cases h
  | case3 p q r _ =>
    simp only [Option.bind_eq_bind, Option.bind_eq_some_iff] at h
    obtain ⟨a, hp, b, hq, c, hr, h⟩ := h
    obtain ⟨ha, rfl⟩ := digit_of_digitValue? hp
    obtain ⟨hb, rfl⟩ := digit_of_digitValue? hq
    obtain ⟨hc, rfl⟩ := digit_of_digitValue? hr
    split at h
    · next hrest =>
      obtain rfl := Option.some.inj h
      have hhigh : (UInt8.ofNat (a * 4 + b / 16)).toNat = a * 4 + b / 16 :=
        Utf8.toNat_ofNat_byte (by omega)
      have hlow : (UInt8.ofNat (b % 16 * 16 + c / 4)).toNat = b % 16 * 16 + c / 4 :=
        Utf8.toNat_ofNat_byte (by omega)
      have hfirst : (a * 4 + b / 16) / 4 = a := by omega
      have hsecond : (a * 4 + b / 16) % 4 * 16 + (b % 16 * 16 + c / 4) / 16 = b := by omega
      have hthird : (b % 16 * 16 + c / 4) % 16 * 4 = c := by omega
      rw [encodeChars, hhigh, hlow, hfirst, hsecond, hthird]
    · cases h
  | case4 p q r s rest _ _ ih =>
    simp only [Option.bind_eq_bind, Option.bind_eq_some_iff] at h
    obtain ⟨a, hp, b, hq, c, hr, d, hs, tail, htail, h⟩ := h
    obtain ⟨ha, rfl⟩ := digit_of_digitValue? hp
    obtain ⟨hb, rfl⟩ := digit_of_digitValue? hq
    obtain ⟨hc, rfl⟩ := digit_of_digitValue? hr
    obtain ⟨hd, rfl⟩ := digit_of_digitValue? hs
    obtain rfl := Option.some.inj h
    have hhigh : (UInt8.ofNat (a * 4 + b / 16)).toNat = a * 4 + b / 16 :=
      Utf8.toNat_ofNat_byte (by omega)
    have hmiddle : (UInt8.ofNat (b % 16 * 16 + c / 4)).toNat = b % 16 * 16 + c / 4 :=
      Utf8.toNat_ofNat_byte (by omega)
    have hlow : (UInt8.ofNat (c % 4 * 64 + d)).toNat = c % 4 * 64 + d :=
      Utf8.toNat_ofNat_byte (by omega)
    have hfirst : (a * 4 + b / 16) / 4 = a := by omega
    have hsecond : (a * 4 + b / 16) % 4 * 16 + (b % 16 * 16 + c / 4) / 16 = b := by omega
    have hthird : (b % 16 * 16 + c / 4) % 16 * 4 + (c % 4 * 64 + d) / 64 = c := by omega
    have hfourth : (c % 4 * 64 + d) % 64 = d := by omega
    rw [encodeChars, hhigh, hmiddle, hlow, hfirst, hsecond, hthird, hfourth, ← ih htail]
  | case5 => cases h

/-- A text is read if and only if it is the standard form of the bytes. -/
theorem decodeChars?_eq_some_iff (s : List Char) (bytes : Bytes) :
    decodeChars? s = some bytes ↔ s = standard bytes := by
  rw [← encodeChars_eq_standard]
  constructor
  · exact encodeChars_of_decodeChars?
  · rintro rfl
    exact decodeChars?_encodeChars bytes

end ResearchRecords.Text.Base64
