import ResearchRecords.Proofs.Text.Utf8

/-!
Texts read back from their bytes. The reader that replaces ill-formed stretches finds none in the
bytes of a text: each leading byte announces as many bytes as follow it, the first of these lies in
the range the leading byte allows, and their low bits are the code point. So it gives the text back.
-/
namespace ResearchRecords.Text.Utf8

/-- Numbers of characters: up to the last code point, with the surrogates left out. -/
theorem toNat_bounds (c : Char) : c.toNat < 0xD800 ∨ 0xDFFF < c.toNat ∧ c.toNat < 0x110000 :=
  c.valid

theorem toNat_ofNat_byte {n : Nat} (h : n < 0x100) : (UInt8.ofNat n).toNat = n := by
  rw [UInt8.toNat_ofNat']
  omega

/-- What a leading byte announces, told from its number. -/
theorem continuation_ofNat {n : Nat} (h : n < 0x100) :
    continuation (UInt8.ofNat n) =
      if n < 0x80 then some (0, 0x80, 0xBF)
      else if n < 0xC2 then none
      else if n < 0xE0 then some (1, 0x80, 0xBF)
      else if n = 0xE0 then some (2, 0xA0, 0xBF)
      else if n = 0xED then some (2, 0x80, 0x9F)
      else if n < 0xF0 then some (2, 0x80, 0xBF)
      else if n = 0xF0 then some (3, 0x90, 0xBF)
      else if n < 0xF4 then some (3, 0x80, 0xBF)
      else if n = 0xF4 then some (3, 0x80, 0x8F)
      else none := by
  have hlt : ∀ b : UInt8, (UInt8.ofNat n < b) = (n < b.toNat) := fun b => by
    rw [UInt8.lt_iff_toNat_lt, toNat_ofNat_byte h]
  have heq : ∀ b : UInt8, (UInt8.ofNat n = b) = (n = b.toNat) := fun b => by
    rw [← UInt8.toNat_inj, toNat_ofNat_byte h]
  simp only [continuation, hlt, heq]
  rfl

/-- A byte in the range continues a sequence. -/
theorem continued_cons {n count : Nat} (h : n < 0x100) {low high : UInt8}
    (hlow : low.toNat ≤ n) (hhigh : n ≤ high.toNat) (rest : Bytes) :
    continued (count + 1) low high (UInt8.ofNat n :: rest) =
      1 + continued count 0x80 0xBF rest := by
  have hrange : low ≤ UInt8.ofNat n ∧ UInt8.ofNat n ≤ high := by
    rw [UInt8.le_iff_toNat_le, UInt8.le_iff_toNat_le, toNat_ofNat_byte h]
    exact ⟨hlow, hhigh⟩
  rw [continued, if_pos hrange]

/-- A byte with six bits of a code point continues a sequence in any place but the first. -/
theorem continued_low (n count : Nat) (rest : Bytes) :
    continued (count + 1) 0x80 0xBF (UInt8.ofNat (n % 64 + 128) :: rest) =
      1 + continued count 0x80 0xBF rest := by
  have hlow : (0x80 : UInt8).toNat = 128 := rfl
  have hhigh : (0xBF : UInt8).toNat = 191 := rfl
  exact continued_cons (by omega) (by omega) (by omega) rest

/-- A sequence is read as its code point if all its bytes continue it. -/
theorem firstLossy_of_continued {lead : UInt8} (tail rest : Bytes) {low high : UInt8}
    (hlead : continuation lead = some (tail.length, low, high))
    (htail : continued tail.length low high (tail ++ rest) = tail.length) :
    firstLossy lead (tail ++ rest) = (Char.ofNat (codePoint lead tail), tail.length) := by
  simp only [firstLossy, hlead]
  rw [if_pos htail, List.take_left]

theorem firstLossy_one {n : Nat} (h : n < 0x80) (rest : Bytes) :
    firstLossy (UInt8.ofNat n) rest = (Char.ofNat n, 0) := by
  have hlead : continuation (UInt8.ofNat n) = some (0, 0x80, 0xBF) := by
    rw [continuation_ofNat (by omega), if_pos h]
  have hpoint : codePoint (UInt8.ofNat n) [] = n := toNat_ofNat_byte (by omega)
  have hfirst := firstLossy_of_continued [] rest hlead rfl
  rwa [hpoint] at hfirst

theorem firstLossy_two {n : Nat} (hlow : 0x80 ≤ n) (hhigh : n < 0x800) (rest : Bytes) :
    firstLossy (UInt8.ofNat (n / 64 % 32 + 192)) (UInt8.ofNat (n % 64 + 128) :: rest) =
      (Char.ofNat n, 1) := by
  have hlead : continuation (UInt8.ofNat (n / 64 % 32 + 192)) = some (1, 0x80, 0xBF) := by
    rw [continuation_ofNat (by omega), if_neg (by omega), if_neg (by omega), if_pos (by omega)]
  have hpoint : codePoint (UInt8.ofNat (n / 64 % 32 + 192)) [UInt8.ofNat (n % 64 + 128)] = n := by
    simp only [codePoint, List.length_cons, List.length_nil, List.foldl_cons, List.foldl_nil]
    rw [toNat_ofNat_byte (by omega), toNat_ofNat_byte (by omega)]
    omega
  have hfirst := firstLossy_of_continued [_] rest hlead (continued_low n 0 rest)
  rwa [hpoint] at hfirst

/-- A leading byte of three and the byte after it: the first of them shuts out overlong forms, and
one in the middle shuts out surrogates. -/
theorem continuation_three {n : Nat} (hlow : 0x800 ≤ n) (hhigh : n < 0x10000)
    (hvalid : n < 0xD800 ∨ 0xDFFF < n) : ∃ low high : UInt8,
      continuation (UInt8.ofNat (n / 4096 % 16 + 224)) = some (2, low, high) ∧
        low.toNat ≤ n / 64 % 64 + 128 ∧ n / 64 % 64 + 128 ≤ high.toNat := by
  have h80 : (0x80 : UInt8).toNat = 128 := rfl
  have h9F : (0x9F : UInt8).toNat = 159 := rfl
  have hA0 : (0xA0 : UInt8).toNat = 160 := rfl
  have hBF : (0xBF : UInt8).toNat = 191 := rfl
  rw [continuation_ofNat (by omega), if_neg (by omega), if_neg (by omega), if_neg (by omega)]
  by_cases hfirst : n / 4096 % 16 + 224 = 0xE0
  · rw [if_pos hfirst]
    exact ⟨_, _, rfl, by omega, by omega⟩
  by_cases hmiddle : n / 4096 % 16 + 224 = 0xED
  · rw [if_neg hfirst, if_pos hmiddle]
    exact ⟨_, _, rfl, by omega, by omega⟩
  · rw [if_neg hfirst, if_neg hmiddle, if_pos (by omega)]
    exact ⟨_, _, rfl, by omega, by omega⟩

theorem firstLossy_three {n : Nat} (hlow : 0x800 ≤ n) (hhigh : n < 0x10000)
    (hvalid : n < 0xD800 ∨ 0xDFFF < n) (rest : Bytes) :
    firstLossy (UInt8.ofNat (n / 4096 % 16 + 224))
      (UInt8.ofNat (n / 64 % 64 + 128) :: UInt8.ofNat (n % 64 + 128) :: rest) =
        (Char.ofNat n, 2) := by
  obtain ⟨low, high, hlead, hleast, hgreatest⟩ := continuation_three hlow hhigh hvalid
  have htail : continued 2 low high
      (UInt8.ofNat (n / 64 % 64 + 128) :: UInt8.ofNat (n % 64 + 128) :: rest) = 2 := by
    rw [continued_cons (by omega) hleast hgreatest, continued_low]
    rfl
  have hpoint : codePoint (UInt8.ofNat (n / 4096 % 16 + 224))
      [UInt8.ofNat (n / 64 % 64 + 128), UInt8.ofNat (n % 64 + 128)] = n := by
    simp only [codePoint, List.length_cons, List.length_nil, List.foldl_cons, List.foldl_nil]
    rw [toNat_ofNat_byte (by omega), toNat_ofNat_byte (by omega), toNat_ofNat_byte (by omega)]
    omega
  have hfirst := firstLossy_of_continued [_, _] rest hlead htail
  rwa [hpoint] at hfirst

/-- A leading byte of four and the byte after it: the first of them shuts out overlong forms, and
the last what lies beyond the last code point. -/
theorem continuation_four {n : Nat} (hlow : 0x10000 ≤ n) (hhigh : n < 0x110000) :
    ∃ low high : UInt8,
      continuation (UInt8.ofNat (n / 262144 % 8 + 240)) = some (3, low, high) ∧
        low.toNat ≤ n / 4096 % 64 + 128 ∧ n / 4096 % 64 + 128 ≤ high.toNat := by
  have h80 : (0x80 : UInt8).toNat = 128 := rfl
  have h8F : (0x8F : UInt8).toNat = 143 := rfl
  have h90 : (0x90 : UInt8).toNat = 144 := rfl
  have hBF : (0xBF : UInt8).toNat = 191 := rfl
  rw [continuation_ofNat (by omega), if_neg (by omega), if_neg (by omega), if_neg (by omega),
    if_neg (by omega), if_neg (by omega), if_neg (by omega)]
  by_cases hfirst : n / 262144 % 8 + 240 = 0xF0
  · rw [if_pos hfirst]
    exact ⟨_, _, rfl, by omega, by omega⟩
  by_cases hmiddle : n / 262144 % 8 + 240 < 0xF4
  · rw [if_neg hfirst, if_pos hmiddle]
    exact ⟨_, _, rfl, by omega, by omega⟩
  · rw [if_neg hfirst, if_neg hmiddle, if_pos (by omega)]
    exact ⟨_, _, rfl, by omega, by omega⟩

theorem firstLossy_four {n : Nat} (hlow : 0x10000 ≤ n) (hhigh : n < 0x110000) (rest : Bytes) :
    firstLossy (UInt8.ofNat (n / 262144 % 8 + 240))
      (UInt8.ofNat (n / 4096 % 64 + 128) :: UInt8.ofNat (n / 64 % 64 + 128) ::
        UInt8.ofNat (n % 64 + 128) :: rest) = (Char.ofNat n, 3) := by
  obtain ⟨low, high, hlead, hleast, hgreatest⟩ := continuation_four hlow hhigh
  have htail : continued 3 low high (UInt8.ofNat (n / 4096 % 64 + 128) ::
      UInt8.ofNat (n / 64 % 64 + 128) :: UInt8.ofNat (n % 64 + 128) :: rest) = 3 := by
    rw [continued_cons (by omega) hleast hgreatest, continued_low, continued_low]
    rfl
  have hpoint : codePoint (UInt8.ofNat (n / 262144 % 8 + 240))
      [UInt8.ofNat (n / 4096 % 64 + 128), UInt8.ofNat (n / 64 % 64 + 128),
        UInt8.ofNat (n % 64 + 128)] = n := by
    simp only [codePoint, List.length_cons, List.length_nil, List.foldl_cons, List.foldl_nil]
    rw [toNat_ofNat_byte (by omega), toNat_ofNat_byte (by omega), toNat_ofNat_byte (by omega),
      toNat_ofNat_byte (by omega)]
    omega
  have hfirst := firstLossy_of_continued [_, _, _] rest hlead htail
  rwa [hpoint] at hfirst

/-- The bytes of a character are a leading byte and those it announces. -/
theorem exists_utf8EncodeChar_eq (c : Char) (rest : Bytes) : ∃ lead tail,
    String.utf8EncodeChar c = lead :: tail ∧
      firstLossy lead (tail ++ rest) = (c, tail.length) := by
  have hvalid := toNat_bounds c
  have hchar : Char.ofNat c.toNat = c := Char.ofNat_toNat c
  have hnumber : c.val.toNat = c.toNat := rfl
  simp only [String.utf8EncodeChar, hnumber]
  by_cases hone : c.toNat ≤ 127
  · have hfirst := firstLossy_one (n := c.toNat) (by omega) rest
    rw [hchar] at hfirst
    rw [if_pos hone]
    exact ⟨_, [], rfl, hfirst⟩
  by_cases htwo : c.toNat ≤ 2047
  · have hfirst := firstLossy_two (n := c.toNat) (by omega) (by omega) rest
    rw [hchar] at hfirst
    rw [if_neg hone, if_pos htwo]
    exact ⟨_, [_], rfl, hfirst⟩
  by_cases hthree : c.toNat ≤ 65535
  · have hfirst := firstLossy_three (n := c.toNat) (by omega) (by omega) (by omega) rest
    rw [hchar] at hfirst
    rw [if_neg hone, if_neg htwo, if_pos hthree]
    exact ⟨_, [_, _], rfl, hfirst⟩
  · have hfirst := firstLossy_four (n := c.toNat) (by omega) (by omega) rest
    rw [hchar] at hfirst
    rw [if_neg hone, if_neg htwo, if_neg hthree]
    exact ⟨_, [_, _, _], rfl, hfirst⟩

theorem charsLossy_flatMap (s : List Char) : charsLossy (s.flatMap String.utf8EncodeChar) = s := by
  induction s with
  | nil => rw [List.flatMap_nil, charsLossy]
  | cons c s ih =>
    obtain ⟨lead, tail, hbytes, hfirst⟩ :=
      exists_utf8EncodeChar_eq c (s.flatMap String.utf8EncodeChar)
    rw [List.flatMap_cons, hbytes, List.cons_append, charsLossy, hfirst, List.drop_left, ih]

/-- Nothing is replaced in the bytes of a text. -/
theorem decodeLossy_encode (s : String) : decodeLossy (encode s) = s := by
  rw [decodeLossy, encode_eq_flatMap, charsLossy_flatMap, String.ofList_toList]

end ResearchRecords.Text.Utf8
