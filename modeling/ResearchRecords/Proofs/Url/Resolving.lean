import ResearchRecords.Proofs.Url.Paths

/-!
Addresses made from others by the rules of the web: a path is set by reading a text, and a relative
path is resolved against an address. The rules drop ignored characters, split, encode, carry out
dots and cut off what stands behind the last slash; for a path that was read, and for names below
it, all of this comes down to closing the path and to replacing its last segment.
-/
namespace ResearchRecords.Url

open Text

/-- The text of a path begins with a slash. -/
def rooted (s : List Char) : List Char := if s.head?.any isSlash then s else '/' :: s

/-- The address with the path that is read from a text, in which marks have no meaning. -/
def setPath (url : Url) (text : String) : Url :=
  { url with path := readPath (rooted (text.toList.filter (!isIgnored ·))) }

/-- Whether a reference has no scheme and begins neither with a slash nor with a mark. -/
def isRelativePath (s : List Char) : Bool :=
  (splitScheme? s).isNone && s.head?.any fun c => !isSlash c && c != '?' && c != '#'

/-- Where a relative path leads from an address: it stands in place of what follows the last slash
of the path, and the query and the fragment are its own. Other references are not followed here. -/
def join? (base : Url) (reference : String) : Option Url :=
  let s := (trimOuter reference.toList).filter (!isIgnored ·)
  let (front, fragment) := splitMark '#' s
  let (path, query) := splitMark '?' front
  if isRelativePath s then
    some
      { base with
        path := resolveDots base.path.dropLast.reverse (segmentsOf path)
        query := query.map (encodeAll isQueryChar)
        fragment := fragment.map (encodeAll isFragmentChar) }
  else none

/-- A text with a slash at its end. -/
def withSlash (text : String) : String :=
  if text.toList.getLast? = some '/' then text else text ++ "/"

/-- The address with its path set to one with a slash at the end, unless it has one. -/
def repaired (url : Url) : Url :=
  if (pathText url.path).toList.getLast? = some '/' then url
  else url.setPath (pathText url.path ++ "/")

/-- What the text of a path consists of. -/
theorem isPathChar_of_mem_intercalate {path : List String}
    (h : ∀ segment ∈ path, segment = "" ∨ IsSegment segment) :
    ∀ c ∈ ['/'].intercalate (path.map String.toList), isPathChar c = true := by
  refine forall_mem_intercalate (p := fun c => isPathChar c = true) (by decide) ?_
  intro part hpart c hc
  obtain ⟨segment, hsegment, rfl⟩ := List.mem_map.mp hpart
  exact (isPlain_of_mem (h segment hsegment) c hc).1

theorem isIgnored_of_isPathChar {c : Char} (h : isPathChar c = true) : isIgnored c = false := by
  have hbound := (toNat_lt_of_isPathChar h).1
  rw [isIgnored, Bool.or_eq_false_iff, Bool.or_eq_false_iff, beq_eq_false_iff_ne,
    beq_eq_false_iff_ne, beq_eq_false_iff_ne]
  refine ⟨⟨?_, ?_⟩, ?_⟩
  all_goals
    rintro rfl
    exact absurd hbound (by decide)

theorem filter_of_isPathChar {s : List Char} (h : ∀ c ∈ s, isPathChar c = true) :
    s.filter (!isIgnored ·) = s := by
  refine List.filter_eq_self.mpr fun c hc => ?_
  rw [isIgnored_of_isPathChar (h c hc), Bool.not_false]

theorem dropWhile_isOuter_of_isPathChar {s : List Char} (h : ∀ c ∈ s, isPathChar c = true) :
    s.dropWhile isOuter = s := by
  cases s with
  | nil => rfl
  | cons c s =>
    have hbound := (toNat_lt_of_isPathChar (h c (List.mem_cons_self ..))).1
    refine List.dropWhile_cons_of_neg ?_
    simpa [isOuter] using hbound

theorem trimOuter_of_isPathChar {s : List Char} (h : ∀ c ∈ s, isPathChar c = true) :
    trimOuter s = s := by
  have hreverse : ∀ c ∈ s.reverse, isPathChar c = true := fun c hc => h c (List.mem_reverse.mp hc)
  rw [trimOuter, dropWhile_isOuter_of_isPathChar h, dropWhile_isOuter_of_isPathChar hreverse,
    List.reverse_reverse]

theorem splitMark_of_isPathChar {mark : Char} (hmark : isPathChar mark = false) {s : List Char}
    (h : ∀ c ∈ s, isPathChar c = true) : splitMark mark s = (s, none) := by
  have hkept : ∀ c ∈ s, (c != mark) = true := by
    intro c hc
    rw [bne_iff_ne]
    rintro rfl
    rw [h c hc] at hmark
    cases hmark
  rw [splitMark, span_of_forall hkept]

/-- The text of a path ends in a slash if its last segment is empty, and then only. -/
theorem getLast?_pathText_iff {path : List String} (h : Settled path) :
    (pathText path).toList.getLast? = some '/' ↔ endsInSlash path = true := by
  rcases List.eq_nil_or_concat path with rfl | ⟨front, last, hpath⟩
  · exact absurd rfl h.nonempty
  · rw [List.concat_eq_append] at hpath
    have htext : (pathText path).toList = (pathText front).toList ++ '/' :: last.toList := by
      rw [hpath, pathText_append, pathText_singleton, String.toList_append, String.toList_append]
      rfl
    have hend : endsInSlash path = true ↔ last = "" := by
      rw [hpath, endsInSlash, List.getLast?_concat, beq_iff_eq, Option.some.injEq]
    rw [htext, hend, List.getLast?_append_cons]
    constructor
    · intro hlast
      by_contra hne
      have hmem : '/' ∈ last.toList := by
        rw [List.getLast?_cons_of_ne_nil] at hlast
        · exact List.mem_of_getLast? hlast
        · simpa using hne
      have hsegment := h.segments last (by rw [hpath]; simp)
      exact (isPlain_of_mem hsegment _ hmem).2.1 rfl
    · rintro rfl
      rfl

theorem pathText_closePath {path : List String} (h : Settled path) :
    pathText (closePath path) = withSlash (pathText path) := by
  unfold closePath withSlash
  by_cases hend : endsInSlash path = true
  · rw [if_pos hend, if_pos ((getLast?_pathText_iff h).mpr hend)]
  · rw [if_neg hend, if_neg fun hlast => hend ((getLast?_pathText_iff h).mp hlast),
      pathText_append, pathText_singleton, String.append_empty]

/-- Setting a path to its own text, with a slash behind it, closes the path. -/
theorem closed_eq_repaired {url : Url} (h : Settled url.path) : url.closed = url.repaired := by
  unfold closed repaired closePath
  by_cases hend : endsInSlash url.path = true
  · rw [if_pos hend, if_pos ((getLast?_pathText_iff h).mpr hend)]
  · have hclosed : Settled (url.path ++ [""]) := settled_concat h.segments (.inl rfl)
    have htext : pathText url.path ++ "/" = pathText (url.path ++ [""]) := by
      rw [pathText_append, pathText_singleton, String.append_empty]
    have hchars : ∀ c ∈ (pathText (url.path ++ [""])).toList, isPathChar c = true := by
      rw [toList_pathText hclosed.nonempty, List.forall_mem_cons]
      exact ⟨by decide, isPathChar_of_mem_intercalate hclosed.segments⟩
    have hrooted : rooted (pathText (url.path ++ [""])).toList =
        (pathText (url.path ++ [""])).toList := by
      rw [toList_pathText hclosed.nonempty]
      rfl
    rw [if_neg hend, if_neg fun hlast => hend ((getLast?_pathText_iff h).mp hlast), setPath,
      htext, filter_of_isPathChar hchars, hrooted, readPath_pathText hclosed]

/-- A relative path of settled segments takes the place of the last segment. -/
theorem join?_eq_sibling (base : Url) {reference : String} {path : List String} (hne : path ≠ [])
    (h : ∀ segment ∈ path, segment = "" ∨ IsSegment segment)
    (htext : reference.toList = ['/'].intercalate (path.map String.toList))
    (hrelative : isRelativePath reference.toList = true) :
    base.join? reference = some (base.sibling path) := by
  have hchars : ∀ c ∈ reference.toList, isPathChar c = true := by
    rw [htext]
    exact isPathChar_of_mem_intercalate h
  have hsegments : segmentsOf reference.toList = path.map String.toList := by
    rw [htext, segmentsOf_intercalate hne h]
  have hhash : isPathChar '#' = false := by decide
  have hquestion : isPathChar '?' = false := by decide
  rw [join?, trimOuter_of_isPathChar hchars, filter_of_isPathChar hchars]
  simp only [splitMark_of_isPathChar hhash hchars, splitMark_of_isPathChar hquestion hchars,
    hsegments, resolveDots_of_settled h, List.reverse_reverse, if_pos hrelative, Option.map_none]
  rfl

end ResearchRecords.Url
