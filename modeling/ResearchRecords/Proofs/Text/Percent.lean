import ResearchRecords.Proofs.Text.Utf8
import ResearchRecords.Text.Percent

/-!
Percent encoding read backwards. A byte is either its own character or a percent sign with two hex
digits, and in both cases the decoder gives the byte back, whatever text follows. So the encoding of
a text stands for the bytes of the text, as long as a bare percent sign is never kept.
-/
namespace ResearchRecords.Text

namespace Utf8

theorem toNat_ofNat_lt {b : UInt8} (h : b < 0x80) : (Char.ofNat b.toNat).toNat = b.toNat := by
  have hlt : b.toNat < 0x80 := UInt8.lt_iff_toNat_lt.mp h
  have hvalid : b.toNat.isValidChar := Or.inl (by omega)
  have hchar : Char.ofNat b.toNat = Char.ofNatAux b.toNat hvalid := dif_pos hvalid
  rw [hchar]
  rfl

/-- A byte below 128 is the whole text of its character. -/
theorem encode_singleton_ofNat {b : UInt8} (h : b < 0x80) :
    encode (String.singleton (Char.ofNat b.toNat)) = [b] := by
  have hlt : b.toNat < 0x80 := UInt8.lt_iff_toNat_lt.mp h
  have hchar := toNat_ofNat_lt h
  rw [encode_eq_flatMap, String.toList_singleton, List.flatMap_cons, List.flatMap_nil,
    List.append_nil, utf8EncodeChar_of_lt (by omega), hchar, UInt8.ofNat_toNat]

theorem encode_injective {s t : String} (h : encode s = encode t) : s = t := by
  have hs := decode?_encode s
  rw [h, decode?_encode] at hs
  exact (Option.some.inj hs).symm

end Utf8

namespace Percent

variable {keep : Char → Bool}

theorem hexValue?_upperHexDigit : ∀ n < 16, hexValue? (upperHexDigit n) = some n := by decide

/-- A character other than the percent sign stands for its own bytes. -/
theorem decodeBytes_cons {c : Char} (h : c ≠ '%') (rest : List Char) :
    decodeBytes (c :: rest) = Utf8.encode (String.singleton c) ++ decodeBytes rest :=
  decodeBytes.eq_3 c rest fun _ _ _ hc _ => h hc

theorem decodeBytes_escapeByte (b : UInt8) (rest : List Char) :
    decodeBytes (escapeByte b ++ rest) = b :: decodeBytes rest := by
  have hb : b.toNat < 256 := b.toNat_lt
  have hhigh := hexValue?_upperHexDigit (b.toNat / 16) (by omega)
  have hlow := hexValue?_upperHexDigit (b.toNat % 16) (by omega)
  have hvalue : b.toNat / 16 * 16 + b.toNat % 16 = b.toNat := by omega
  simp only [escapeByte, List.cons_append, List.nil_append, decodeBytes, hhigh, hlow, hvalue,
    UInt8.ofNat_toNat]

theorem decodeBytes_encodeByte (hkeep : keep '%' = false) (b : UInt8) (rest : List Char) :
    decodeBytes (encodeByte keep b ++ rest) = b :: decodeBytes rest := by
  unfold encodeByte
  split
  · next h =>
    obtain ⟨hlt, hkept⟩ := h
    have hne : Char.ofNat b.toNat ≠ '%' := by
      intro heq
      rw [heq, hkeep] at hkept
      exact Bool.false_ne_true hkept
    rw [List.singleton_append, decodeBytes_cons hne, Utf8.encode_singleton_ofNat hlt,
      List.singleton_append]
  · exact decodeBytes_escapeByte b rest

theorem decodeBytes_flatMap_encodeByte (hkeep : keep '%' = false) (bytes : Bytes)
    (rest : List Char) :
    decodeBytes (bytes.flatMap (encodeByte keep) ++ rest) = bytes ++ decodeBytes rest := by
  induction bytes with
  | nil => rfl
  | cons b bytes ih =>
    rw [List.flatMap_cons, List.append_assoc, decodeBytes_encodeByte hkeep, ih, List.cons_append]

/-- What a text is written as stands for the bytes of the text. -/
theorem decodeBytes_encodeChars (hkeep : keep '%' = false) (s : List Char) :
    decodeBytes (encodeChars keep s) = Utf8.encode (String.ofList s) := by
  have h := decodeBytes_flatMap_encodeByte hkeep (Utf8.encode (String.ofList s)) []
  rwa [List.append_nil, decodeBytes, List.append_nil] at h

/-- What a written text consists of: characters that are kept, and those of escapes. -/
def isWritten (keep : Char → Bool) (c : Char) : Bool :=
  keep c || c == '%' || ('0' ≤ c && c ≤ '9') || ('A' ≤ c && c ≤ 'F')

theorem isWritten_upperHexDigit (keep : Char → Bool) {n : Nat} (h : n < 16) :
    isWritten keep (upperHexDigit n) = true := by
  have hdigit : ∀ n < 16, (decide ('0' ≤ upperHexDigit n) && decide (upperHexDigit n ≤ '9') ||
      decide ('A' ≤ upperHexDigit n) && decide (upperHexDigit n ≤ 'F')) = true := by decide
  have := hdigit n h
  grind [isWritten]

theorem isWritten_of_mem_encodeByte {b : UInt8} {c : Char} (h : c ∈ encodeByte keep b) :
    isWritten keep c = true := by
  have hb : b.toNat < 256 := b.toNat_lt
  unfold encodeByte at h
  split at h
  · next hkept =>
    obtain rfl := List.mem_singleton.mp h
    simp [isWritten, hkept.2]
  · simp only [escapeByte, List.mem_cons, List.not_mem_nil, or_false] at h
    rcases h with rfl | rfl | rfl
    · simp [isWritten]
    · exact isWritten_upperHexDigit keep (by omega)
    · exact isWritten_upperHexDigit keep (by omega)

theorem isWritten_of_mem_encodeChars {s : List Char} {c : Char} (h : c ∈ encodeChars keep s) :
    isWritten keep c = true := by
  obtain ⟨b, _, hc⟩ := List.mem_flatMap.mp h
  exact isWritten_of_mem_encodeByte hc

theorem encodeChars_cons (c : Char) (s : List Char) : encodeChars keep (c :: s) =
    (String.utf8EncodeChar c).flatMap (encodeByte keep) ++ encodeChars keep s := by
  rw [encodeChars, encodeChars, Utf8.encode_ofList, Utf8.encode_ofList, List.flatMap_cons,
    List.flatMap_append]

/-- A text of kept characters of one byte is written as it is. -/
theorem encodeChars_of_kept {s : List Char} (h : ∀ c ∈ s, c.toNat < 0x80 ∧ keep c = true) :
    encodeChars keep s = s := by
  induction s with
  | nil => rfl
  | cons c s ih =>
    obtain ⟨⟨hlt, hkept⟩, hrest⟩ := List.forall_mem_cons.mp h
    have hnat : (UInt8.ofNat c.toNat).toNat = c.toNat :=
      UInt8.toNat_ofNat_of_lt' (Nat.lt_trans hlt (by decide))
    have hbyte : UInt8.ofNat c.toNat < 0x80 := by
      rw [UInt8.lt_iff_toNat_lt, hnat]
      exact hlt
    have hwritten : encodeByte keep (UInt8.ofNat c.toNat) = [c] := by
      rw [encodeByte, hnat, Char.ofNat_toNat, if_pos ⟨hbyte, hkept⟩]
    rw [encodeChars_cons, Utf8.utf8EncodeChar_of_lt hlt, List.flatMap_cons, List.flatMap_nil,
      List.append_nil, hwritten, ih hrest, List.singleton_append]

/-- A written character that is part of no escape stands in the text itself. -/
theorem mem_of_mem_encodeChars {s : List Char} {c : Char} (h : c ∈ encodeChars keep s)
    (hmark : isWritten (fun _ => false) c = false) : c ∈ s := by
  rw [encodeChars, Utf8.encode_ofList, List.mem_flatMap] at h
  obtain ⟨b, hb, hc⟩ := h
  obtain ⟨d, hd, hb⟩ := List.mem_flatMap.mp hb
  unfold encodeByte at hc
  split at hc
  · next hkept =>
    obtain rfl := List.mem_singleton.mp hc
    have hlt : b.toNat < 0x80 := UInt8.lt_iff_toNat_lt.mp hkept.1
    by_cases hsmall : d.toNat < 0x80
    · rw [Utf8.utf8EncodeChar_of_lt hsmall, List.mem_singleton] at hb
      have hnat : (UInt8.ofNat d.toNat).toNat = d.toNat :=
        UInt8.toNat_ofNat_of_lt' (Nat.lt_trans hsmall (by decide))
      rw [hb, hnat, Char.ofNat_toNat]
      exact hd
    · have hlarge := UInt8.le_iff_toNat_le.mp (Utf8.le_of_mem_utf8EncodeChar (by omega) hb)
      exact absurd hlarge (Nat.not_le.mpr hlt)
  · have hescape : c ∈ encodeByte (fun _ => false) b := by
      rw [encodeByte, if_neg (by simp)]
      exact hc
    rw [isWritten_of_mem_encodeByte hescape] at hmark
    cases hmark

end Percent

namespace Form

/-- A plus sign stands for a space before anything else is decoded. -/
def unplus (c : Char) : Char := if c = '+' then ' ' else c

theorem unplus_of_isWritten {c : Char} (h : Percent.isWritten isKept c = true) : unplus c = c := by
  have hne : c ≠ '+' := by
    rintro rfl
    exact Bool.false_ne_true h
  exact if_neg hne

theorem decodeBytes_encodeByte (b : UInt8) (rest : List Char) :
    Percent.decodeBytes ((encodeByte b ++ rest).map unplus) =
      b :: Percent.decodeBytes (rest.map unplus) := by
  unfold encodeByte
  by_cases hspace : b = 0x20
  · subst hspace
    have hblank : ' ' ≠ '%' := by decide
    rw [if_pos rfl]
    exact Percent.decodeBytes_cons hblank (rest.map unplus)
  · have hkept : (Percent.encodeByte isKept b).map unplus = Percent.encodeByte isKept b := by
      refine (List.map_congr_left fun c hc => ?_).trans (List.map_id _)
      exact unplus_of_isWritten (Percent.isWritten_of_mem_encodeByte hc)
    have hpercent : isKept '%' = false := by decide
    rw [if_neg hspace, List.map_append, hkept, Percent.decodeBytes_encodeByte hpercent]

/-- What a text is written as in a query stands for the bytes of the text. -/
theorem decodeBytes_encode (s : String) :
    Percent.decodeBytes ((encode s).toList.map unplus) = Utf8.encode s := by
  rw [encode, String.toList_ofList]
  induction Utf8.encode s with
  | nil => rfl
  | cons b bytes ih => rw [List.flatMap_cons, decodeBytes_encodeByte, ih]

end Form

end ResearchRecords.Text
