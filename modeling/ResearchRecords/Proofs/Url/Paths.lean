import ResearchRecords.Proofs.Url.Marks

/-!
Paths of addresses that were read. Their segments hold only characters that stand for themselves in
a path, neither a separator nor a dot segment, so reading the text of such a path gives the path
again. That makes a path determined by its text.
-/
namespace ResearchRecords.Url

open Results
open Text

/-- A path with nothing left to be encoded, split or carried out. -/
structure Settled (path : List String) : Prop where
  nonempty : path ≠ []
  segments : ∀ segment ∈ path, segment = "" ∨ IsSegment segment

/-- Characters that may stand in a segment. -/
def IsPlain (c : Char) : Prop := isPathChar c = true ∧ c ≠ '/' ∧ c ≠ '\\'

theorem isSegment_iff (segment : String) : IsSegment segment ↔ segment ≠ "" ∧
    segment.toList.all (fun c => isPathChar c && c != '/' && c != '\\') = true ∧
      isSingleDot segment.toList = false ∧ isDoubleDot segment.toList = false := by
  constructor
  · intro ⟨hnonempty, hchars, hsingle, hdouble⟩
    exact ⟨hnonempty, by simpa [and_assoc] using hchars, hsingle, hdouble⟩
  · intro ⟨hnonempty, hchars, hsingle, hdouble⟩
    exact ⟨hnonempty, by simpa [and_assoc] using hchars, hsingle, hdouble⟩

instance (segment : String) : Decidable (IsSegment segment) :=
  decidable_of_iff _ (isSegment_iff segment).symm

/-- A backslash in a path is a slash. -/
def slashed (c : Char) : Char := if c = '\\' then '/' else c

/-- The segments of the text of a path, without its first slash, as they are written. -/
def segmentsOf (s : List Char) : List (List Char) :=
  ((s.map slashed).splitOn '/').map (Percent.encodeChars isPathChar)

theorem readPath_cons (c : Char) (s : List Char) :
    readPath (c :: s) = resolveDots [] (segmentsOf s) := rfl

theorem isPlain_of_mem_segmentsOf {s part : List Char} (h : part ∈ segmentsOf s) :
    ∀ c ∈ part, IsPlain c := by
  intro c hc
  obtain ⟨piece, hpiece, rfl⟩ := List.mem_map.mp h
  have hsource : ∀ mark, Percent.isWritten (fun _ => false) mark = false → c = mark →
      mark ∈ s.map slashed ∧ mark ≠ '/' := by
    rintro mark hmark rfl
    exact mem_of_mem_splitOn hpiece (Percent.mem_of_mem_encodeChars hc hmark)
  refine ⟨?_, ?_, ?_⟩
  · have hwritten := Percent.isWritten_of_mem_encodeChars hc
    simp only [Percent.isWritten, Bool.or_eq_true, Bool.and_eq_true, decide_eq_true_eq,
      beq_iff_eq, or_assoc] at hwritten
    rcases hwritten with hkept | rfl | hdigit
    · exact hkept
    · decide
    · exact (isPathChar_of_isDigit hdigit).1
  · intro hslash
    exact (hsource '/' (by decide) hslash).2 rfl
  · intro hbackslash
    obtain ⟨d, _, hd⟩ := List.mem_map.mp (hsource '\\' (by decide) hbackslash).1
    unfold slashed at hd
    split at hd
    · cases hd
    · next hne => exact hne hd

theorem segmentsOf_ne_nil (s : List Char) : segmentsOf s ≠ [] := by
  simp [segmentsOf, List.splitOn_ne_nil]

/-- A text that is no dot segment is a segment, unless it is empty. -/
theorem segment_cases {s : List Char} (hplain : ∀ c ∈ s, IsPlain c)
    (hsingle : isSingleDot s = false) (hdouble : isDoubleDot s = false) :
    String.ofList s = "" ∨ IsSegment (String.ofList s) := by
  by_cases hempty : s = []
  · left
    rw [hempty]
  · right
    refine ⟨by simpa using hempty, ?_, ?_, ?_⟩
    all_goals rwa [String.toList_ofList]

theorem settled_concat {front : List String} {last : String}
    (hfront : ∀ segment ∈ front, segment = "" ∨ IsSegment segment)
    (hlast : last = "" ∨ IsSegment last) : Settled (front ++ [last]) := by
  refine ⟨by simp, ?_⟩
  rw [List.forall_mem_append]
  exact ⟨hfront, by simpa using hlast⟩

/-- Carrying out dots leaves no dot segment. -/
theorem settled_resolveDots {done : List String} {rest : List (List Char)} (hrest : rest ≠ [])
    (hdone : ∀ segment ∈ done, segment = "" ∨ IsSegment segment)
    (hplain : ∀ s ∈ rest, ∀ c ∈ s, IsPlain c) : Settled (resolveDots done rest) := by
  fun_induction resolveDots done rest with
  | case1 => exact absurd rfl hrest
  | case2 done last _ =>
    refine settled_concat (fun segment hmem => ?_) (.inl rfl)
    exact hdone segment (List.mem_of_mem_tail (List.mem_reverse.mp hmem))
  | case3 done last _ _ =>
    exact settled_concat (fun segment hmem => hdone segment (List.mem_reverse.mp hmem)) (.inl rfl)
  | case4 done last hdouble hsingle =>
    refine settled_concat (fun segment hmem => hdone segment (List.mem_reverse.mp hmem)) ?_
    refine segment_cases (hplain last (List.mem_cons_self ..)) ?_ ?_
    · simpa using hsingle
    · simpa using hdouble
  | case5 done s rest hne _ ih =>
    refine ih hne (fun segment hmem => hdone segment (List.mem_of_mem_tail hmem)) ?_
    exact (List.forall_mem_cons.mp hplain).2
  | case6 done s rest hne _ _ ih =>
    exact ih hne hdone (List.forall_mem_cons.mp hplain).2
  | case7 done s rest hne hdouble hsingle ih =>
    obtain ⟨hs, hlater⟩ := List.forall_mem_cons.mp hplain
    refine ih hne (List.forall_mem_cons.mpr ⟨segment_cases hs ?_ ?_, hdone⟩) hlater
    · simpa using hsingle
    · simpa using hdouble

theorem settled_readPath (s : List Char) : Settled (readPath s) := by
  have hread : ∀ s, Settled (resolveDots [] (segmentsOf s)) := fun s =>
    settled_resolveDots (segmentsOf_ne_nil s) (by simp) fun _ => isPlain_of_mem_segmentsOf
  cases s with
  | nil => exact hread []
  | cons c s => exact hread s

theorem settled_of_parse {text : String} {url : Url} (h : parse text = .ok url) :
    Settled url.path := by
  unfold parse at h
  split at h
  · cases h
  · split at h
    · simp only [readWeb, bind_eq_ok, pure_eq_ok] at h
      obtain ⟨_, _, rfl⟩ := h
      exact settled_readPath _
    · exact absurd h (refuseOther_ne_ok _ _ _)

/-- Settled segments are carried out as they are. -/
theorem resolveDots_of_settled {path : List String}
    (h : ∀ segment ∈ path, segment = "" ∨ IsSegment segment) (done : List String) :
    resolveDots done (path.map String.toList) = done.reverse ++ path := by
  have hdots : ∀ segment ∈ path, isSingleDot segment.toList = false ∧
      isDoubleDot segment.toList = false := by
    intro segment hmem
    rcases h segment hmem with rfl | hsegment
    · decide
    · exact ⟨hsegment.single, hsegment.double⟩
  induction path generalizing done with
  | nil => simp [resolveDots]
  | cons segment path ih =>
    obtain ⟨⟨hsingle, hdouble⟩, hrest⟩ := List.forall_mem_cons.mp hdots
    cases path with
    | nil =>
      rw [List.map_singleton, resolveDots, hdouble, hsingle, String.ofList_toList]
      rfl
    | cons other path =>
      have hlater := ih (List.forall_mem_cons.mp h).2 (segment :: done) hrest
      rw [List.map_cons] at hlater
      rw [List.map_cons, List.map_cons, resolveDots, hdouble, hsingle, String.ofList_toList]
      · show resolveDots (segment :: done) (other.toList :: path.map String.toList) = _
        rw [hlater, List.reverse_cons, List.append_assoc, List.singleton_append]
      · simp

theorem isPlain_of_mem {segment : String} (h : segment = "" ∨ IsSegment segment) :
    ∀ c ∈ segment.toList, IsPlain c := by
  rcases h with rfl | hsegment
  · simp
  · exact hsegment.chars

theorem toNat_lt_of_isPathChar {c : Char} (h : isPathChar c = true) :
    0x20 < c.toNat ∧ c.toNat < 0x80 := by
  simp only [isPathChar, isFragmentChar, isShown, Bool.and_eq_true, decide_eq_true_eq] at h
  omega

/-- The segments of a text that is made of settled ones are these. -/
theorem segmentsOf_intercalate {path : List String} (hne : path ≠ [])
    (h : ∀ segment ∈ path, segment = "" ∨ IsSegment segment) :
    segmentsOf (['/'].intercalate (path.map String.toList)) = path.map String.toList := by
  have hslash : ∀ part ∈ path.map String.toList, '/' ∉ part := by
    intro part hpart hmem
    obtain ⟨segment, hsegment, rfl⟩ := List.mem_map.mp hpart
    exact (isPlain_of_mem (h segment hsegment) _ hmem).2.1 rfl
  have hkept : (['/'].intercalate (path.map String.toList)).map slashed =
      ['/'].intercalate (path.map String.toList) := by
    refine (List.map_congr_left fun c hc => ?_).trans (List.map_id _)
    refine forall_mem_intercalate (p := fun c => slashed c = c) rfl ?_ c hc
    intro part hpart c hc
    obtain ⟨segment, hsegment, rfl⟩ := List.mem_map.mp hpart
    exact if_neg (isPlain_of_mem (h segment hsegment) c hc).2.2
  rw [segmentsOf, hkept, List.splitOn_intercalate '/' hslash (by simpa using hne)]
  refine (List.map_congr_left fun part hpart => ?_).trans (List.map_id _)
  obtain ⟨segment, hsegment, rfl⟩ := List.mem_map.mp hpart
  refine Percent.encodeChars_of_kept fun c hc => ?_
  have hpath := (isPlain_of_mem (h segment hsegment) c hc).1
  exact ⟨(toNat_lt_of_isPathChar hpath).2, hpath⟩

theorem toList_pathText {path : List String} (h : path ≠ []) :
    (pathText path).toList = '/' :: ['/'].intercalate (path.map String.toList) := by
  induction path with
  | nil => exact absurd rfl h
  | cons segment path ih =>
    cases path with
    | nil => simp [pathText]
    | cons other path =>
      have hcons : pathText (segment :: other :: path) =
          "/" ++ segment ++ pathText (other :: path) := by
        simp [pathText]
      rw [hcons, String.toList_append, ih (List.cons_ne_nil _ _)]
      simp

/-- Reading the text of a settled path gives the path. -/
theorem readPath_pathText {path : List String} (h : Settled path) :
    readPath (pathText path).toList = path := by
  rw [toList_pathText h.nonempty, readPath_cons, segmentsOf_intercalate h.nonempty h.segments,
    resolveDots_of_settled h.segments, List.reverse_nil, List.nil_append]

theorem Settled.eq_of_pathText_eq {path other : List String} (h : Settled path)
    (hother : Settled other) (heq : pathText path = pathText other) : path = other := by
  rw [← readPath_pathText h, heq, readPath_pathText hother]

theorem Settled.closePath {path : List String} (h : Settled path) : Settled (closePath path) := by
  unfold Url.closePath
  split
  · exact h
  · exact settled_concat h.segments (.inl rfl)

end ResearchRecords.Url
