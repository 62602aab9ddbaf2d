import ResearchRecords.Proofs.Results
import ResearchRecords.Proofs.Text.Pairs
import ResearchRecords.Proofs.Url.Segments
import ResearchRecords.Url.Parser

/-!
The marks that begin the query and the fragment of an address. In an address that was read from a
text, neither the scheme nor the authority nor a segment of the path holds one of them: what may not
stand in its part is escaped, and a host that holds a mark is refused. The same goes for addresses
made from it by other segments. So the query that is cut out of the text of such an address is the
query it was given.
-/
namespace ResearchRecords.Url

open Results
open Text

/-- A character that begins neither a query nor a fragment. -/
def isUnmarked (c : Char) : Bool := c != '?' && c != '#'

/-- Neither mark stands before the query of the address. -/
structure Unmarked (url : Url) : Prop where
  scheme : ∀ c ∈ url.scheme.toList, isUnmarked c = true
  authority : ∀ c ∈ url.authority.toList, isUnmarked c = true
  path : ∀ segment ∈ url.path, ∀ c ∈ segment.toList, isUnmarked c = true

/-- The query of an address, cut out of its text: what follows the first question mark, up to the
first hash sign. -/
def queryText (text : String) : Option String :=
  (splitMark '?' (splitMark '#' text.toList).1).2.map String.ofList

/-- Cutting at a mark undoes putting a part behind it. -/
theorem splitMark_suffix {mark : Char} {front sign : String} (hfront : mark ∉ front.toList)
    (hsign : sign.toList = [mark]) (part : Option String) :
    splitMark mark (front ++ suffix sign part).toList = (front.toList, part.map String.toList) := by
  have hkept : ∀ c ∈ front.toList, (c != mark) = true := by
    intro c hc
    simpa using fun heq : c = mark => hfront (heq ▸ hc)
  rw [splitMark, String.toList_append]
  cases part with
  | none =>
    rw [suffix, String.toList_empty, List.append_nil, span_of_forall hkept]
    rfl
  | some part =>
    rw [suffix, String.toList_append, hsign, List.singleton_append,
      span_append_cons hkept (by simp)]
    rfl

theorem Unmarked.front {url : Url} (h : url.Unmarked) :
    ∀ c ∈ (url.scheme ++ "://" ++ url.authority ++ pathText url.path).toList,
      isUnmarked c = true := by
  intro c hc
  simp only [String.toList_append, List.mem_append, or_assoc] at hc
  rcases hc with hscheme | hcolon | hauthority | hpath
  · exact h.scheme c hscheme
  · have hcases : c = ':' ∨ c = '/' := by simpa using hcolon
    rcases hcases with rfl | rfl <;> rfl
  · exact h.authority c hauthority
  · rw [pathText, String.toList_join, List.mem_flatMap] at hpath
    obtain ⟨_, hmem, hc⟩ := hpath
    obtain ⟨segment, hsegment, rfl⟩ := List.mem_map.mp hmem
    rw [String.toList_append, List.mem_append] at hc
    rcases hc with hslash | hc
    · obtain rfl : c = '/' := by simpa using hslash
      rfl
    · exact h.path segment hsegment c hc

/-- The text of an address shows its query as long as that holds no hash sign. -/
theorem Unmarked.queryText_text {url : Url} (h : url.Unmarked)
    (hquery : ∀ query, url.query = some query → '#' ∉ query.toList) :
    queryText url.text = url.query := by
  have hquestion : '?' ∉ (url.scheme ++ "://" ++ url.authority ++ pathText url.path).toList :=
    fun hmem => Bool.false_ne_true (h.front _ hmem)
  have hhash : '#' ∉ (url.scheme ++ "://" ++ url.authority ++ pathText url.path ++
      suffix "?" url.query).toList := by
    rw [String.toList_append, List.mem_append, not_or]
    refine ⟨fun hmem => Bool.false_ne_true (h.front _ hmem), ?_⟩
    cases hsome : url.query with
    | none => simp [suffix]
    | some query => simpa [suffix] using hquery query hsome
  rw [queryText, text, splitMark_suffix hhash rfl, splitMark_suffix hquestion rfl, Option.map_map]
  cases url.query <;> simp

/-- What is written without the marks holds neither of them. -/
theorem isUnmarked_of_isWritten {keep : Char → Bool} (hquestion : keep '?' = false)
    (hhash : keep '#' = false) {c : Char} (h : Percent.isWritten keep c = true) :
    isUnmarked c = true := by
  rw [isUnmarked, Bool.and_eq_true, bne_iff_ne, bne_iff_ne]
  constructor
  · rintro rfl
    simp [Percent.isWritten, hquestion] at h
  · rintro rfl
    simp [Percent.isWritten, hhash] at h

theorem isUnmarked_of_mem_encodeChars {keep : Char → Bool} (hquestion : keep '?' = false)
    (hhash : keep '#' = false) {s : List Char} :
    ∀ c ∈ Percent.encodeChars keep s, isUnmarked c = true := fun _ hc =>
  isUnmarked_of_isWritten hquestion hhash (Percent.isWritten_of_mem_encodeChars hc)

/-- Carrying out dots leaves segments as they are written, and may add one that is empty. -/
theorem mem_resolveDots {done : List String} {rest : List (List Char)} {segment : String}
    (h : segment ∈ resolveDots done rest) :
    segment ∈ done ∨ segment = "" ∨ ∃ s ∈ rest, segment = String.ofList s := by
  induction rest generalizing done with
  | nil =>
    rw [resolveDots, List.mem_reverse] at h
    exact .inl h
  | cons s rest ih =>
    -- What is in hand when `s` has been carried out: fewer segments, the same, or one more.
    have hstep : (∃ next, (∀ t ∈ next, t ∈ done ∨ t = String.ofList s) ∧
        segment ∈ resolveDots next rest) ∨ segment ∈ done ∨ segment = "" ∨
          segment = String.ofList s := by
      cases rest with
      | nil =>
        right
        rw [resolveDots] at h
        split at h
        · rw [List.mem_append, List.mem_reverse, List.mem_singleton] at h
          exact h.imp List.mem_of_mem_tail .inl
        · split at h
          · rw [List.mem_append, List.mem_reverse, List.mem_singleton] at h
            exact h.imp_right .inl
          · rw [List.mem_append, List.mem_reverse, List.mem_singleton] at h
            exact h.imp_right .inr
      | cons other rest =>
        left
        rw [resolveDots] at h
        · split at h
          · exact ⟨done.tail, fun t ht => .inl (List.mem_of_mem_tail ht), h⟩
          · split at h
            · exact ⟨done, fun t ht => .inl ht, h⟩
            · exact ⟨String.ofList s :: done, fun t ht => (List.mem_cons.mp ht).symm, h⟩
        · simp
    rcases hstep with ⟨next, hnext, hmem⟩ | hdone | hempty | hwritten
    · rcases ih hmem with hmem | hempty | ⟨t, ht, rfl⟩
      · rcases hnext segment hmem with hdone | rfl
        · exact .inl hdone
        · exact .inr (.inr ⟨s, List.mem_cons_self .., rfl⟩)
      · exact .inr (.inl hempty)
      · exact .inr (.inr ⟨t, List.mem_cons_of_mem _ ht, rfl⟩)
    · exact .inl hdone
    · exact .inr (.inl hempty)
    · exact .inr (.inr ⟨s, List.mem_cons_self .., hwritten⟩)

theorem isUnmarked_of_mem_resolveDots {done : List String} {rest : List (List Char)}
    (hdone : ∀ segment ∈ done, ∀ c ∈ segment.toList, isUnmarked c = true)
    (hrest : ∀ s ∈ rest, ∀ c ∈ s, isUnmarked c = true) :
    ∀ segment ∈ resolveDots done rest, ∀ c ∈ segment.toList, isUnmarked c = true := by
  intro segment hsegment c hc
  rcases mem_resolveDots hsegment with hmem | rfl | ⟨s, hs, rfl⟩
  · exact hdone segment hmem c hc
  · simp at hc
  · rw [String.toList_ofList] at hc
    exact hrest s hs c hc

theorem isUnmarked_digitChar (n : Nat) : isUnmarked n.digitChar = true := by
  have hsmall : ∀ n < 16, isUnmarked n.digitChar = true := by decide
  by_cases h : n < 16
  · exact hsmall n h
  · have hstar : n.digitChar = '*' := by
      unfold Nat.digitChar
      repeat rw [if_neg (by omega)]
    rw [hstar]
    rfl

theorem isUnmarked_of_mem_toDigits (base n : Nat) :
    ∀ c ∈ Nat.toDigits base n, isUnmarked c = true := by
  have hcore : ∀ (fuel n : Nat) (digits : List Char), (∀ c ∈ digits, isUnmarked c = true) →
      ∀ c ∈ Nat.toDigitsCore base fuel n digits, isUnmarked c = true := by
    intro fuel
    induction fuel with
    | zero => exact fun _ _ hdigits => hdigits
    | succ fuel ih =>
      intro n digits hdigits
      have hmore : ∀ c ∈ (n % base).digitChar :: digits, isUnmarked c = true :=
        List.forall_mem_cons.mpr ⟨isUnmarked_digitChar _, hdigits⟩
      rw [Nat.toDigitsCore]
      split_ifs
      · exact hmore
      · exact ih _ _ hmore
  exact hcore _ _ _ (by simp)

theorem Host.isUnmarked_ipv4Text (n : Nat) : ∀ c ∈ ipv4Text n, isUnmarked c = true := by
  refine forall_mem_intercalate (p := fun c => isUnmarked c = true) rfl ?_
  intro part hpart
  simp only [List.mem_cons, List.not_mem_nil, or_false] at hpart
  rcases hpart with rfl | rfl | rfl | rfl
  all_goals exact isUnmarked_of_mem_toDigits 10 _

theorem Host.isUnmarked_hexGroups (groups : List Nat) :
    ∀ c ∈ hexGroups groups, isUnmarked c = true := by
  refine forall_mem_intercalate (p := fun c => isUnmarked c = true) rfl ?_
  intro part hpart
  obtain ⟨group, _, rfl⟩ := List.mem_map.mp hpart
  exact isUnmarked_of_mem_toDigits 16 group

theorem Host.isUnmarked_ipv6Text (groups : List Nat) :
    ∀ c ∈ ipv6Text groups, isUnmarked c = true := by
  simp only [ipv6Text]
  split
  · exact isUnmarked_hexGroups groups
  · intro c hc
    simp only [List.mem_append, List.mem_cons, List.not_mem_nil, or_false, or_assoc] at hc
    rcases hc with hfront | rfl | rfl | hback
    · exact isUnmarked_hexGroups _ c hfront
    · rfl
    · rfl
    · exact isUnmarked_hexGroups _ c hback

theorem Host.isUnmarked_of_domainText? {s domain : List Char} (h : domainText? s = some domain) :
    ∀ c ∈ domain, isUnmarked c = true := by
  simp only [domainText?, Option.bind_eq_bind, Option.bind_eq_some_iff] at h
  obtain ⟨_, _, h⟩ := h
  split at h
  · simp at h
  · next hallowed =>
    obtain rfl := Option.some.inj h
    intro c hc
    have hkept : isForbidden c = false := by
      by_contra hforbidden
      exact hallowed (List.any_eq_true.mpr ⟨c, hc, by simpa using hforbidden⟩)
    rw [isUnmarked, Bool.and_eq_true, bne_iff_ne, bne_iff_ne]
    constructor
    · rintro rfl
      exact absurd hkept (by decide)
    · rintro rfl
      exact absurd hkept (by decide)

/-- A host is an address of digits, or a name without forbidden characters. -/
theorem Host.isUnmarked_of_parse {s host : List Char} (h : Host.parse s = .ok host) :
    ∀ c ∈ host, isUnmarked c = true := by
  unfold Host.parse at h
  split at h
  · simp at h
  · next s =>
    unfold parseIpv6 at h
    split at h
    · next groups _ =>
      obtain rfl := Except.ok.inj h
      intro c hc
      rw [List.mem_append, List.mem_cons, List.mem_singleton] at hc
      rcases hc with (rfl | hc) | rfl
      · rfl
      · exact isUnmarked_ipv6Text groups c hc
      · rfl
    · simp at h
  · unfold parseDomain at h
    split at h
    · simp at h
    · simp at h
    · next hdomain =>
      split at h
      · split at h
        · obtain rfl := Except.ok.inj h
          exact isUnmarked_ipv4Text _
        · simp at h
      · obtain rfl := Except.ok.inj h
        exact isUnmarked_of_domainText? hdomain

theorem isUnmarked_portText {scheme : String} {port : Option (List Char)} {text : List Char}
    (h : portText scheme port = .ok text) : ∀ c ∈ text, isUnmarked c = true := by
  unfold portText at h
  split at h
  · obtain rfl := Except.ok.inj h
    simp
  · obtain rfl := Except.ok.inj h
    simp
  · split at h
    · simp at h
    · next n _ =>
      obtain rfl := Except.ok.inj h
      split
      · simp
      · exact List.forall_mem_cons.mpr ⟨rfl, isUnmarked_of_mem_toDigits 10 n⟩

theorem isUnmarked_userText (user : List Char) : ∀ c ∈ userText user, isUnmarked c = true := by
  have hencode : ∀ s : List Char, ∀ c ∈ Percent.encodeChars isUserChar s, isUnmarked c = true :=
    fun s => isUnmarked_of_mem_encodeChars (by decide) (by decide)
  have hclose : ∀ text : List Char, (∀ c ∈ text, isUnmarked c = true) →
      ∀ c ∈ if text.isEmpty then [] else text ++ ['@'], isUnmarked c = true := by
    intro text htext
    split
    · simp
    · exact List.forall_mem_append.mpr ⟨htext, by simp [isUnmarked]⟩
  unfold userText
  apply hclose
  split
  · exact hencode _
  · exact hencode _
  · exact List.forall_mem_append.mpr ⟨hencode _, List.forall_mem_cons.mpr ⟨rfl, hencode _⟩⟩

theorem isUnmarked_of_readAuthority {scheme : String} {s : List Char} {authority : String}
    (h : readAuthority scheme true s = .ok authority) :
    ∀ c ∈ authority.toList, isUnmarked c = true := by
  simp only [readAuthority] at h
  split at h
  · simp [throw, throwThe, MonadExceptOf.throw, bind, Except.bind] at h
  · simp only [if_true, bind_eq_ok, pure_eq_ok] at h
    obtain ⟨host, hhost, port, hport, rfl⟩ := h
    rw [String.toList_ofList, List.forall_mem_append, List.forall_mem_append]
    refine ⟨⟨?_, Host.isUnmarked_of_parse hhost⟩, isUnmarked_portText hport⟩
    cases (splitLast '@' s).1 with
    | none => simp
    | some user => exact isUnmarked_userText user

theorem unmarked_of_readWeb {scheme : String} (hscheme : ∀ c ∈ scheme.toList, isUnmarked c = true)
    {s : List Char} {url : Url} (h : readWeb scheme s = .ok url) : url.Unmarked := by
  simp only [readWeb, bind_eq_ok, pure_eq_ok] at h
  obtain ⟨authority, hauthority, rfl⟩ := h
  refine ⟨hscheme, isUnmarked_of_readAuthority hauthority, ?_⟩
  refine isUnmarked_of_mem_resolveDots (by simp) ?_
  intro segment hsegment
  obtain ⟨text, _, rfl⟩ := List.mem_map.mp hsegment
  exact isUnmarked_of_mem_encodeChars (by decide) (by decide)

theorem refuseOther_ne_ok (scheme : String) (s : List Char) (url : Url) :
    refuseOther scheme s ≠ .ok url := by
  intro h
  simp only [refuseOther] at h
  split at h
  · simp at h
  · split at h
    · split at h
      · simp at h
      · simp at h
    · simp at h

/-- An address that was read from a text. -/
theorem unmarked_of_parse {text : String} {url : Url} (h : parse text = .ok url) :
    url.Unmarked := by
  unfold parse at h
  split at h
  · simp at h
  · split at h
    · next scheme s _ hweb =>
      refine unmarked_of_readWeb ?_ h
      rcases hweb with rfl | rfl <;> exact List.all_eq_true.mp (by decide)
    · exact absurd h (refuseOther_ne_ok _ _ _)

theorem Unmarked.closed {url : Url} (h : url.Unmarked) : url.closed.Unmarked where
  scheme := h.scheme
  authority := h.authority
  path := by
    show ∀ segment ∈ closePath url.path, _
    unfold closePath
    split
    · exact h.path
    · exact List.forall_mem_append.mpr ⟨h.path, by simp⟩

theorem Unmarked.sibling {url : Url} (h : url.Unmarked) {segments : List String}
    (hsegments : ∀ segment ∈ segments, ∀ c ∈ segment.toList, isUnmarked c = true) :
    (url.sibling segments).Unmarked where
  scheme := h.scheme
  authority := h.authority
  path := List.forall_mem_append.mpr
    ⟨fun segment hmem => h.path segment (List.dropLast_subset _ hmem), hsegments⟩

theorem Unmarked.push {url : Url} (h : url.Unmarked) (text : String) :
    (url.push text).Unmarked where
  scheme := h.scheme
  authority := h.authority
  path := by
    show ∀ segment ∈ appendSegment url.path text, _
    unfold appendSegment
    split
    · exact h.path
    · apply isUnmarked_of_mem_resolveDots
      · exact fun segment hmem => h.path segment (List.mem_reverse.mp hmem)
      · intro s hs
        obtain rfl := List.mem_singleton.mp hs
        exact isUnmarked_of_mem_encodeChars (by decide) (by decide)

theorem Unmarked.withPairs {url : Url} (h : url.Unmarked) (pairs : List (String × Option String)) :
    (url.withPairs pairs).Unmarked := by
  unfold Url.withPairs
  split
  · exact h
  · exact ⟨h.scheme, h.authority, h.path⟩

/-- The pairs added to an address without a query can be read from its text. -/
theorem Unmarked.queryText_withPairs {url : Url} (h : url.Unmarked) (hnone : url.query = none)
    {pairs : List (String × Option String)} (hnames : ∀ pair ∈ pairs, pair.1 ≠ "") :
    (queryText (url.withPairs pairs).text).map Form.decodePairs =
      if pairs = [] then none else some pairs := by
  have hquery : (url.withPairs pairs).query =
      if pairs = [] then none else some (Form.encodePairs pairs) := by
    by_cases hempty : pairs = []
    · rw [hempty]
      exact hnone
    · simp [Url.withPairs, hempty, hnone]
  have hhash : ∀ query, (url.withPairs pairs).query = some query → '#' ∉ query.toList := by
    intro query hsome hmem
    rw [hquery] at hsome
    split at hsome
    · simp at hsome
    · obtain rfl := Option.some.inj hsome
      exact absurd (Form.isQueryMark_of_mem_encodePairs hmem) (by decide)
  rw [(h.withPairs pairs).queryText_text hhash, hquery]
  by_cases hempty : pairs = []
  · rw [if_pos hempty, if_pos hempty]
    rfl
  · rw [if_neg hempty, if_neg hempty, Option.map_some, Form.decodePairs_encodePairs hnames]

end ResearchRecords.Url
