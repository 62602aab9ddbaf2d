import ResearchRecords.Proofs.Text.Percent
import ResearchRecords.Url.Basic

/-!
Segments appended to a path. A text without ignored characters that is not a lone dot or two becomes
one segment, from which the text can be read back; it holds no separator and no mark of another part
of an address. Any other text is lost in part or as a whole: dots are carried out, and ignored
characters are dropped.
-/
namespace ResearchRecords.Url

open Text

/-- What a path may hold between two slashes: characters of a path, and no dot segment. -/
structure IsSegment (segment : String) : Prop where
  nonempty : segment ≠ ""
  chars : ∀ c ∈ segment.toList, isPathChar c = true ∧ c ≠ '/' ∧ c ≠ '\\'
  single : isSingleDot segment.toList = false
  double : isDoubleDot segment.toList = false

/-- Texts that a segment can stand for. -/
structure Spellable (text : String) : Prop where
  nonempty : text ≠ ""
  single : text ≠ "."
  double : text ≠ ".."
  kept : ∀ c ∈ text.toList, isIgnored c = false

theorem spellable_iff (text : String) : Spellable text ↔
    text ≠ "" ∧ text ≠ "." ∧ text ≠ ".." ∧ text.toList.all (fun c => !isIgnored c) = true := by
  constructor
  · intro ⟨hnonempty, hsingle, hdouble, hkept⟩
    exact ⟨hnonempty, hsingle, hdouble, by simpa using hkept⟩
  · intro ⟨hnonempty, hsingle, hdouble, hkept⟩
    exact ⟨hnonempty, hsingle, hdouble, by simpa using hkept⟩

instance (text : String) : Decidable (Spellable text) :=
  decidable_of_iff _ (spellable_iff text).symm

/-- The text can be read back from the segment. -/
def StandsFor (segment text : String) : Prop :=
  Percent.decodeBytes segment.toList = Utf8.encode text

/-- The letters that lowering changes become lower letters, 32 places further on. -/
theorem toLower_cases {c d : Char} (h : c.toLower = d) :
    c = d ∨ c.toNat + 32 = d.toNat ∧ 65 ≤ c.toNat ∧ c.toNat ≤ 90 := by
  delta Char.toLower at h
  split at h
  · next hupper =>
    have hlow : 65 ≤ c.val.toNat := UInt32.le_iff_toNat_le.mp hupper.1
    have hhigh : c.val.toNat ≤ 90 := UInt32.le_iff_toNat_le.mp hupper.2
    have hsum : (c.val + 32).toNat = d.val.toNat := congrArg Char.toNat h
    have hstep : (32 : UInt32).toNat = 32 := rfl
    rw [UInt32.toNat_add] at hsum
    exact .inr (show c.val.toNat + 32 = d.val.toNat ∧ 65 ≤ c.val.toNat ∧ c.val.toNat ≤ 90 by omega)
  · exact .inl h

theorem eq_of_toLower_eq {c d : Char} (h : c.toLower = d) (hd : d.toNat < 97) : c = d := by
  rcases toLower_cases h with heq | ⟨hsum, hlow, _⟩
  · exact heq
  · omega

theorem hexValue?_of_toLower_eq_e {c : Char} (h : c.toLower = 'e') :
    Percent.hexValue? c = some 14 := by
  have hcase : c = 'e' ∨ c = 'E' := by
    rcases toLower_cases h with heq | ⟨hsum, _⟩
    · exact .inl heq
    · have hlast : 'e'.toNat = 'E'.toNat + 32 := rfl
      exact .inr (Char.toNat_inj.mp (by omega))
  rcases hcase with rfl | rfl <;> decide

/-- A dot in front, written as such or escaped, stands for a dot. -/
theorem exists_decodeBytes_of_dot {s rest : List Char}
    (h : s.map Char.toLower = '.' :: rest ∨ s.map Char.toLower = '%' :: '2' :: 'e' :: rest) :
    ∃ s', s'.map Char.toLower = rest ∧ Percent.decodeBytes s = 0x2E :: Percent.decodeBytes s' := by
  rcases h with h | h
  · obtain ⟨c, s', rfl, hc, hrest⟩ := List.map_eq_cons_iff.mp h
    obtain rfl := eq_of_toLower_eq hc (by decide)
    refine ⟨s', hrest, ?_⟩
    rw [Percent.decodeBytes_cons (by decide)]
    rfl
  · obtain ⟨c₁, s₁, rfl, h₁, htail₁⟩ := List.map_eq_cons_iff.mp h
    obtain ⟨c₂, s₂, rfl, h₂, htail₂⟩ := List.map_eq_cons_iff.mp htail₁
    obtain ⟨c₃, s', rfl, h₃, hrest⟩ := List.map_eq_cons_iff.mp htail₂
    obtain rfl := eq_of_toLower_eq h₁ (by decide)
    obtain rfl := eq_of_toLower_eq h₂ (by decide)
    have htwo : Percent.hexValue? '2' = some 2 := by decide
    refine ⟨s', hrest, ?_⟩
    simp only [Percent.decodeBytes, htwo, hexValue?_of_toLower_eq_e h₃]
    rfl

/-- What is read as one dot stands for one. -/
theorem decodeBytes_of_isSingleDot {s : List Char} (h : isSingleDot s = true) :
    Percent.decodeBytes s = Utf8.encode "." := by
  have hdot : s.map Char.toLower = ['.'] ∨ s.map Char.toLower = ['%', '2', 'e'] := by
    simpa [isSingleDot] using h
  obtain ⟨s', hs', hdecode⟩ := exists_decodeBytes_of_dot hdot
  obtain rfl := List.map_eq_nil_iff.mp hs'
  rw [hdecode]
  rfl

theorem decodeBytes_of_isDoubleDot {s : List Char} (h : isDoubleDot s = true) :
    Percent.decodeBytes s = Utf8.encode ".." := by
  have hdots : ∃ rest, (s.map Char.toLower = '.' :: rest ∨
      s.map Char.toLower = '%' :: '2' :: 'e' :: rest) ∧
        (rest = ['.'] ∨ rest = ['%', '2', 'e']) := by
    have hany : s.map Char.toLower = ['.', '.'] ∨
        s.map Char.toLower = ['%', '2', 'e', '%', '2', 'e'] ∨
        s.map Char.toLower = ['%', '2', 'e', '.'] ∨
        s.map Char.toLower = ['.', '%', '2', 'e'] := by
      simpa [isDoubleDot] using h
    grind
  obtain ⟨rest, hfirst, hsecond⟩ := hdots
  obtain ⟨s₁, hs₁, hdecode₁⟩ := exists_decodeBytes_of_dot hfirst
  have hnext : s₁.map Char.toLower = ['.'] ∨ s₁.map Char.toLower = ['%', '2', 'e'] := by
    rwa [hs₁]
  obtain ⟨s₂, hs₂, hdecode₂⟩ := exists_decodeBytes_of_dot hnext
  obtain rfl := List.map_eq_nil_iff.mp hs₂
  rw [hdecode₁, hdecode₂]
  rfl

theorem isSegmentChar_percent : isSegmentChar '%' = false := by decide

/-- A text as it is written in one segment. -/
def spell (text : List Char) : String :=
  String.ofList (Percent.encodeChars isSegmentChar text)

theorem standsFor_spell (text : List Char) : StandsFor (spell text) (String.ofList text) := by
  rw [StandsFor, spell, String.toList_ofList]
  exact Percent.decodeBytes_encodeChars isSegmentChar_percent text

theorem StandsFor.unique {segment text other : String} (h : StandsFor segment text)
    (hother : StandsFor segment other) : text = other :=
  Utf8.encode_injective (h.symm.trans hother)

theorem isPathChar_of_isDigit {c : Char} (h : '0' ≤ c ∧ c ≤ '9' ∨ 'A' ≤ c ∧ c ≤ 'F') :
    isPathChar c = true ∧ c ≠ '/' ∧ c ≠ '\\' := by
  have hcodes : ∀ n < 71, 48 ≤ n ∧ n ≤ 57 ∨ 65 ≤ n ∧ n ≤ 70 →
      isPathChar (Char.ofNat n) = true ∧ Char.ofNat n ≠ '/' ∧ Char.ofNat n ≠ '\\' := by decide
  have hcode : 48 ≤ c.toNat ∧ c.toNat ≤ 57 ∨ 65 ≤ c.toNat ∧ c.toNat ≤ 70 := h
  have hpath := hcodes c.toNat (by omega) hcode
  rwa [Char.ofNat_toNat] at hpath

/-- Escapes are made of characters that a segment may hold. -/
theorem isPathChar_of_isWritten {c : Char} (h : Percent.isWritten isSegmentChar c = true) :
    isPathChar c = true ∧ c ≠ '/' ∧ c ≠ '\\' := by
  simp only [Percent.isWritten, Bool.or_eq_true, Bool.and_eq_true, decide_eq_true_eq,
    beq_iff_eq, or_assoc] at h
  rcases h with hkept | rfl | hdigit
  · have hparts : isPathChar c = true ∧ c ≠ '/' ∧ c ≠ '%' ∧ c ≠ '\\' := by
      simpa [isSegmentChar, not_or] using hkept
    exact ⟨hparts.1, hparts.2.1, hparts.2.2.2⟩
  · decide
  · exact isPathChar_of_isDigit hdigit

theorem isSegment_spell {text : String} (h : Spellable text) : IsSegment (spell text.toList) := by
  have hstands : StandsFor (spell text.toList) text := by
    simpa using standsFor_spell text.toList
  have hother : ∀ {other : String}, text ≠ other →
      Percent.decodeBytes (spell text.toList).toList ≠ Utf8.encode other := by
    intro other hne heq
    exact hne (Utf8.encode_injective (hstands.symm.trans heq))
  refine ⟨?_, ?_, ?_, ?_⟩
  · intro hempty
    refine hother h.nonempty ?_
    rw [hempty]
    rfl
  · intro c hc
    rw [spell, String.toList_ofList] at hc
    exact isPathChar_of_isWritten (Percent.isWritten_of_mem_encodeChars hc)
  · exact Bool.eq_false_iff.mpr fun hdot => hother h.single (decodeBytes_of_isSingleDot hdot)
  · exact Bool.eq_false_iff.mpr fun hdots => hother h.double (decodeBytes_of_isDoubleDot hdots)

/-- What is left of a text when ignored characters are dropped. -/
def keptChars (text : String) : List Char := text.toList.filter (!isIgnored ·)

theorem appendSegment_of_dots {text : String} (h : text = "." ∨ text = "..") (path : List String) :
    appendSegment path text = path := if_pos h

theorem appendSegment_of_not_dots {text : String} (h : ¬ (text = "." ∨ text = ".."))
    (path : List String) : appendSegment path text =
      resolveDots path.reverse [Percent.encodeChars isSegmentChar (keptChars text)] := if_neg h

/-- Unless it is a lone dot or two, a text adds one segment, which may be empty and then replace the
last one. -/
theorem appendSegment_cases {text : String} (h : ¬ (text = "." ∨ text = ".."))
    (path : List String) : appendSegment path text = path.dropLast ++ [""] ∨
      appendSegment path text = path ++ [""] ∨
        appendSegment path text = path ++ [spell (keptChars text)] := by
  rw [appendSegment_of_not_dots h, resolveDots]
  split
  · left
    rw [List.tail_reverse, List.reverse_reverse]
  · split
    · right; left
      rw [List.reverse_reverse]
    · right; right
      rw [List.reverse_reverse]
      rfl

theorem keptChars_of_kept {text : String} (h : ∀ c ∈ text.toList, isIgnored c = false) :
    keptChars text = text.toList := by
  refine List.filter_eq_self.mpr fun c hc => ?_
  rw [h c hc, Bool.not_false]

/-- A spellable text becomes one segment. -/
theorem appendSegment_of_spellable {text : String} (h : Spellable text) (path : List String) :
    appendSegment path text = path ++ [spell text.toList] := by
  have hdots : ¬ (text = "." ∨ text = "..") := not_or.mpr ⟨h.single, h.double⟩
  have hsegment := isSegment_spell h
  have hsingle := hsegment.single
  have hdouble := hsegment.double
  rw [spell, String.toList_ofList] at hsingle hdouble
  rw [appendSegment_of_not_dots hdots, keptChars_of_kept h.kept, resolveDots, hdouble, hsingle,
    List.reverse_reverse]
  rfl

@[simp] theorem pathText_append (path other : List String) :
    pathText (path ++ other) = pathText path ++ pathText other := by
  simp [pathText]

@[simp] theorem pathText_singleton (segment : String) : pathText [segment] = "/" ++ segment := by
  simp [pathText]

theorem length_pathText_dropLast_le (path : List String) :
    (pathText path.dropLast).length ≤ (pathText path).length := by
  rcases List.eq_nil_or_concat path with rfl | ⟨front, last, rfl⟩
  · exact Nat.le_refl _
  · rw [List.concat_eq_append, List.dropLast_concat, pathText_append, String.length_append]
    exact Nat.le_add_right _ _

theorem length_slash_append (segment : String) : ("/" ++ segment).length = segment.length + 1 := by
  rw [String.length_append]
  exact Nat.add_comm _ _

/-- Only a spellable text is appended as a segment that stands for it. -/
theorem spellable_of_appendSegment {path : List String} {text segment : String} (hne : text ≠ "")
    (hsegment : segment ≠ "") (hstands : StandsFor segment text)
    (h : pathText (appendSegment path text) = pathText path ++ "/" ++ segment) :
    Spellable text := by
  have hpositive : 0 < segment.length :=
    Nat.pos_of_ne_zero fun hzero => hsegment (String.length_eq_zero_iff.mp hzero)
  rw [String.append_assoc] at h
  have hlength := congrArg String.length h
  rw [String.length_append, length_slash_append] at hlength
  by_cases hdots : text = "." ∨ text = ".."
  · rw [appendSegment_of_dots hdots] at hlength
    omega
  · rcases appendSegment_cases hdots path with heq | heq | heq
    · have hle := length_pathText_dropLast_le path
      rw [heq, pathText_append, pathText_singleton, String.length_append,
        length_slash_append, String.length_empty] at hlength
      omega
    · rw [heq, pathText_append, pathText_singleton, String.length_append,
        length_slash_append, String.length_empty] at hlength
      omega
    · rw [heq, pathText_append, pathText_singleton] at h
      have hspelled : spell (keptChars text) = segment :=
        (String.append_right_inj _).mp ((String.append_right_inj _).mp h)
      have hkept : String.ofList (keptChars text) = text := by
        refine StandsFor.unique ?_ hstands
        rw [← hspelled]
        exact standsFor_spell (keptChars text)
      have hdotless := not_or.mp hdots
      refine ⟨hne, hdotless.1, hdotless.2, fun c hc => ?_⟩
      rw [← hkept, String.toList_ofList] at hc
      simpa using (List.mem_filter.mp hc).2

end ResearchRecords.Url
