import ResearchRecords.Proofs.Text.Joined
import ResearchRecords.Proofs.Text.Lossy
import ResearchRecords.Proofs.Text.Percent

/-!
Query pairs read back. What a name or a value is written as holds neither of the marks between pairs
and within them, so a query is split where it was joined, and each part stands for its text. Only a
name that is empty could be lost.
-/
namespace ResearchRecords.Text.Form

/-- What a written name or value consists of: no marks of a query or of an address. -/
def isPlain (c : Char) : Bool := c == '+' || Percent.isWritten isKept c

theorem isPlain_of_mem_encode {s : String} {c : Char} (h : c ∈ (encode s).toList) :
    isPlain c = true := by
  rw [encode, String.toList_ofList, List.mem_flatMap] at h
  obtain ⟨b, _, hc⟩ := h
  unfold encodeByte at hc
  split at hc
  · obtain rfl := List.mem_singleton.mp hc
    rfl
  · simp [isPlain, Percent.isWritten_of_mem_encodeByte hc]

theorem ne_of_isPlain {mark : Char} (hmark : isPlain mark = false) {s : String} {c : Char}
    (h : c ∈ (encode s).toList) : c ≠ mark := by
  rintro rfl
  rw [isPlain_of_mem_encode h] at hmark
  cases hmark

/-- A name or a value reads back as the text it was written for. -/
theorem decode_encode (s : String) : decode (encode s).toList = s := by
  have hbytes := decodeBytes_encode s
  unfold unplus at hbytes
  rw [decode, hbytes, Utf8.decodeLossy_encode]

theorem encode_ne_empty {s : String} (h : s ≠ "") : encode s ≠ "" := by
  intro hempty
  apply h
  have hnothing : decode "".toList = "" := decode_encode ""
  rw [← decode_encode s, hempty, hnothing]

theorem decodePair_encodePair (pair : String × Option String) :
    decodePair (encodePair pair).toList = pair := by
  have hname : ∀ c ∈ (encode pair.1).toList, (c != '=') = true := by
    intro c hc
    have hmark : isPlain '=' = false := by decide
    simpa using ne_of_isPlain hmark hc
  obtain ⟨name, value | value⟩ := pair
  · rw [encodePair, decodePair, span_of_forall hname]
    simp only [decode_encode]
  · have hparts : (encodePair (name, some value)).toList =
        (encode name).toList ++ '=' :: (encode value).toList := by
      simp [encodePair]
    rw [hparts, decodePair, span_append_cons hname (by decide)]
    simp only [decode_encode]

/-- What a query consists of. -/
def isQueryMark (c : Char) : Bool := c == '&' || c == '=' || isPlain c

theorem isPlain_of_mem_encodePair {pair : String × Option String} {c : Char}
    (h : c ∈ (encodePair pair).toList) : c = '=' ∨ isPlain c = true := by
  obtain ⟨name, value | value⟩ := pair
  · exact .inr (isPlain_of_mem_encode h)
  · simp only [encodePair, String.toList_append, List.mem_append] at h
    rcases h with (hname | hmark) | hvalue
    · exact .inr (isPlain_of_mem_encode hname)
    · left
      simpa using hmark
    · exact .inr (isPlain_of_mem_encode hvalue)

theorem encodePair_ne_empty {pair : String × Option String} (h : pair.1 ≠ "") :
    encodePair pair ≠ "" := by
  obtain ⟨name, value | value⟩ := pair
  · exact encode_ne_empty h
  · simp [encodePair]

theorem toList_encodePairs (pairs : List (String × Option String)) :
    (encodePairs pairs).toList =
      ['&'].intercalate (pairs.map fun pair => (encodePair pair).toList) := by
  rw [encodePairs, String.toList_intercalate, List.map_map]
  rfl

theorem isQueryMark_of_mem_encodePairs {pairs : List (String × Option String)} {c : Char}
    (h : c ∈ (encodePairs pairs).toList) : isQueryMark c = true := by
  rw [toList_encodePairs] at h
  refine forall_mem_intercalate (p := fun c => isQueryMark c = true) rfl ?_ c h
  intro part hpart c hc
  obtain ⟨pair, _, rfl⟩ := List.mem_map.mp hpart
  rcases isPlain_of_mem_encodePair hc with rfl | hplain
  · rfl
  · simp [isQueryMark, hplain]

/-- A query reads back as the pairs it was written for, in their order. -/
theorem decodePairs_encodePairs {pairs : List (String × Option String)}
    (h : ∀ pair ∈ pairs, pair.1 ≠ "") : decodePairs (encodePairs pairs) = pairs := by
  have hsplit : splitPairs (encodePairs pairs).toList =
      pairs.map fun pair => (encodePair pair).toList := by
    rw [splitPairs, toList_encodePairs]
    by_cases hnone : pairs = []
    · rw [hnone]
      rfl
    · rw [List.splitOn_intercalate '&' ?_ (by simpa using hnone), List.filter_eq_self]
      · intro part hpart
        obtain ⟨pair, hpair, rfl⟩ := List.mem_map.mp hpart
        simpa using encodePair_ne_empty (h pair hpair)
      · intro part hpart hmark
        obtain ⟨pair, _, rfl⟩ := List.mem_map.mp hpart
        rcases isPlain_of_mem_encodePair hmark with hequals | hplain
        · exact absurd hequals (by decide)
        · exact absurd hplain (by decide)
  rw [decodePairs, hsplit, List.map_map]
  exact (List.map_congr_left fun pair _ => decodePair_encodePair pair).trans (List.map_id _)

end ResearchRecords.Text.Form
