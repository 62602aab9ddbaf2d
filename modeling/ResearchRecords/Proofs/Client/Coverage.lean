import ResearchRecords.Proofs.Client.Walk
import ResearchRecords.Proofs.Document.Pages
import ResearchRecords.Proofs.Document.Totals
import ResearchRecords.Proofs.Json.Written
import ResearchRecords.Proofs.Text.Percent

/-!
Walking a collection of a repository that answers as it is asked. The windows of the requests follow
each other without a gap up to the end of the collection, so the walk hands out every record from
the offset on, in order and once, and ends after the window that is not full.
-/
namespace ResearchRecords

open Document (ReadsAlone TellsTotal IncludedReads)
open Json (Value Members Node)
open Results
open Text (Form.decodePairs)

variable {σ : Type}

/-- A page with these resources and nothing included, whose document is as described. -/
def IsPage (p : Value → Prop) (values : List Value) (body : Bytes) : Prop :=
  ∃ members, Json.readWith (Node.value Node.maxDepth) body = .ok (.object members) ∧
    (Members.names members).count "data" ≤ 1 ∧ Members.get? members "data" = some (.array values) ∧
    Members.get? members "included" = none ∧ p (.object members)

/-- The part of a collection that begins at an offset and is as long as the limit allows. -/
def window {α : Type} (limit offset : Nat) (xs : List α) : List α := (xs.drop offset).take limit

/-- In every state, a request that asks for the page at an offset gets a page with the window of the
resources there. -/
def Transport.Serves (p : Value → Prop) (transport : Transport σ) (client : Client)
    (selector : Selector) (values : List Value) : Prop :=
  ∀ state offset request, offset ≤ Selector.maxOffset →
    request.AsksFor client { selector with offset } → ∃ status body,
      Client.isSuccess status = true ∧
        (transport.answer state request).1 = .ok ⟨status, body⟩ ∧
        IsPage p (window selector.limit offset values) body

/-- A page is read as the records of its resources. -/
theorem readPage_of_isPage {kind : Kind} {values : List Value} {records : List Record}
    (hreads : List.Forall₂ (ReadsAlone kind none) values records)
    (hids : (records.map Record.id).Nodup) {status : Nat} (hstatus : Client.isSuccess status = true)
    {body : Bytes} (hpage : IsPage TellsTotal values body) (request : Request) :
    ∃ total, Client.readPage kind request (.ok ⟨status, body⟩) = .ok ⟨records, total⟩ := by
  obtain ⟨members, hv, hdataOnce, hdata, hincluded, htells⟩ := hpage
  obtain ⟨total, htotal⟩ := (Document.exists_total_iff hv).mpr htells
  have honce : Document.scanLayout.Once members := by
    have hincludedOnce : (Members.names members).count "included" ≤ 1 := by
      rw [List.count_eq_zero.mpr ((Members.get?_eq_none_iff ..).mp hincluded)]
      exact Nat.zero_le 1
    intro name hname
    rcases List.mem_cons.mp hname with rfl | hname
    · exact hdataOnce
    · obtain rfl := List.mem_singleton.mp hname
      exact hincludedOnce
  have hincludedReads : IncludedReads none := ⟨⟨[], rfl⟩, by simp⟩
  have hmany := Document.readMany_of_readsAlone hv honce hdata hincluded hincludedReads hreads hids
  have hfound : Client.foundBody request (.ok ⟨status, body⟩) = .ok (some body) :=
    (Client.foundBody_eq_some ..).mpr ⟨status, hstatus, rfl⟩
  refine ⟨total, ?_⟩
  simp [Client.readPage, hfound, Client.ofDocument, hmany, htotal, Except.mapError]

namespace Walk

variable {transport : Transport σ} {client : Client} {selector : Selector}

/-- What was exchanged are requests with the answers of the repository. -/
theorem exists_answer_of_mem (state : σ) (n : Nat) :
    ∀ exchange ∈ (after transport client selector state n).exchanges, ∃ s,
      exchange.outcome = (transport.answer s exchange.request).1 := by
  induction n with
  | zero => exact fun _ h => absurd h List.not_mem_nil
  | succ n ih =>
    rw [after_succ]
    generalize after transport client selector state n = walk at ih ⊢
    intro exchange hmem
    rw [turn] at hmem
    cases hnext : walk.pager.next with
    | done result =>
      rw [hnext] at hmem
      exact ih exchange hmem
    | send request next =>
      rw [hnext] at hmem
      rcases List.mem_append.mp hmem with hbefore | hnew
      · exact ih exchange hbefore
      · obtain rfl := List.mem_singleton.mp hnew
        exact ⟨walk.state, rfl⟩

/-- The items are those that were handed out, followed by the lacks of items. -/
theorem exists_items_eq (state : σ) (hoffset : selector.offset ≤ Selector.maxOffset)
    (hlimit : 0 < selector.limit) (n : Nat) :
    ∃ k, (after transport client selector state n).items =
      (after transport client selector state n).items.reduceOption.map some ++
        List.replicate k none := by
  induction n with
  | zero => exact ⟨0, rfl⟩
  | succ n ih =>
    have hlawful : (after transport client selector state n).Lawful client selector :=
      after_lawful state hoffset hlimit n
    rw [after_succ]
    generalize after transport client selector state n = walk at ih hlawful ⊢
    obtain ⟨k, hk⟩ := ih
    by_cases hended : walk.pager.Ended
    · refine ⟨k + 1, ?_⟩
      rw [turn_of_ended hended]
      simp only [reduceOption_concat, Option.toList_none, List.append_nil]
      rw [List.replicate_succ', ← List.append_assoc, ← hk]
    · -- The first lack ends the walk, so there was none before.
      have hzero : k = 0 := by
        by_contra hne
        have hmem : none ∈ walk.items := by
          rw [hk]
          exact List.mem_append_right _ (List.mem_replicate.mpr ⟨hne, rfl⟩)
        exact hended (hlawful.ended none hmem (by simp))
      subst hzero
      obtain ⟨_, _, hitems⟩ := turn_eq_run transport walk
      rw [hitems, reduceOption_concat, List.map_append]
      rw [List.replicate_zero, List.append_nil] at hk
      cases (walk.pager.next.run transport walk.state).1.1 with
      | none => exact ⟨1, congrArg (· ++ [none]) (by simpa using hk)⟩
      | some item => exact ⟨0, by simpa using hk⟩

theorem forall₂_window {α β : Type} {R : α → β → Prop} {xs : List α} {ys : List β}
    (h : List.Forall₂ R xs ys) (limit offset : Nat) :
    List.Forall₂ R (window limit offset xs) (window limit offset ys) :=
  List.forall₂_take limit (List.forall₂_drop offset h)

theorem window_sublist {α : Type} (limit offset : Nat) (xs : List α) :
    (window limit offset xs).Sublist xs :=
  (List.take_sublist ..).trans (List.drop_sublist ..)

theorem length_window {α : Type} (limit offset : Nat) (xs : List α) :
    (window limit offset xs).length = min limit (xs.length - offset) := by
  rw [window, List.length_take, List.length_drop]

/-- Windows that follow each other are one window together. -/
theorem flatMap_window {α : Type} (xs : List α) (offset limit count : Nat) :
    (List.range count).flatMap (fun i => window limit (offset + i * limit) xs) =
      (xs.drop offset).take (count * limit) := by
  induction count with
  | zero => simp
  | succ count ih =>
    rw [List.range_succ, List.flatMap_append, ih, List.flatMap_singleton, Nat.succ_mul,
      List.take_add, List.drop_drop, window]

/-- The offset of the page with a number. -/
def offsetAt (selector : Selector) (i : Nat) : Nat :=
  min (selector.offset + i * selector.limit) Selector.maxOffset

variable {values : List Value} {records : List Record}

/-- Each page is the window of its number. -/
theorem forall₂_results {config : Config} (hclient : Client.ofConfig config = .ok client)
    (hserves : transport.Serves TellsTotal client selector values)
    (hreads : List.Forall₂ (ReadsAlone selector.kind none) values records)
    (hids : (records.map Record.id).Nodup) (hoffset : selector.offset ≤ Selector.maxOffset)
    (hlimit : 0 < selector.limit) (state : σ) (n : Nat) :
    let walk := after transport client selector state n
    List.Forall₂ (fun i result => ∃ total, result =
        .ok ⟨window selector.limit (offsetAt selector i) records, total⟩)
      (List.range walk.exchanges.length) (walk.results selector.kind) := by
  intro walk
  have hlawful : walk.Lawful client selector := after_lawful state hoffset hlimit n
  have hasks : List.Forall₂ (fun exchange i => exchange.request.AsksFor client
      (selector.atPage i)) walk.exchanges (List.range walk.exchanges.length) := by
    refine List.forall₂_iff_get.mpr ⟨List.length_range.symm, fun i hi _ => ?_⟩
    simpa using hlawful.asksFor hclient (List.getElem?_eq_getElem hi)
  have hanswers := (List.forall₂_and_left _ _).mpr ⟨exists_answer_of_mem state n, hasks⟩
  rw [results, List.forall₂_map_right_iff]
  refine hanswers.flip.imp ?_
  rintro i exchange ⟨⟨s, houtcome⟩, hasks⟩
  have hle : offsetAt selector i ≤ Selector.maxOffset := Nat.min_le_right ..
  obtain ⟨status, body, hstatus, hanswer, hpage⟩ := hserves s (offsetAt selector i) _ hle hasks
  rw [houtcome, hanswer]
  exact readPage_of_isPage (forall₂_window hreads ..)
    (hids.sublist ((window_sublist ..).map Record.id)) hstatus hpage _

/-- Results that are windows hand out the records of all windows. -/
theorem flatMap_items_of_windows {pages : Nat → List Record} {indices : List Nat}
    {results : List PageResult}
    (h : List.Forall₂ (fun i result => ∃ total, result = .ok ⟨pages i, total⟩) indices results) :
    results.flatMap PageResult.items = (indices.flatMap pages).map .ok := by
  induction h with
  | nil => rfl
  | cons hfirst _ ih =>
    obtain ⟨total, rfl⟩ := hfirst
    rw [List.flatMap_cons, List.flatMap_cons, List.map_append, ih]
    rfl

/-- So many requests cover a collection of this size, and find its end. -/
def windowCount (selector : Selector) (size : Nat) : Nat :=
  if selector.offset ≤ size then (size - selector.offset) / selector.limit + 1 else 1

/-- Full windows of a collection, followed by one that is not full. -/
structure Covers (selector : Selector) (size count : Nat) : Prop where
  full : ∀ i, i + 1 < count → selector.limit ≤ size - offsetAt selector i
  last : ∃ i, count = i + 1 ∧ size - offsetAt selector i < selector.limit

theorem offset_le_of_full {selector : Selector} {size i : Nat} (hlimit : 0 < selector.limit)
    (hsize : size ≤ Selector.maxOffset) (hfull : selector.limit ≤ size - offsetAt selector i) :
    selector.offset + (i + 1) * selector.limit ≤ size := by
  have hstep : (i + 1) * selector.limit = i * selector.limit + selector.limit := Nat.succ_mul ..
  unfold offsetAt at hfull
  omega

/-- While all windows before are full, no offset has reached the greatest value. -/
theorem offsetAt_eq {selector : Selector} {size i : Nat} (hlimit : 0 < selector.limit)
    (hoffset : selector.offset ≤ Selector.maxOffset) (hsize : size ≤ Selector.maxOffset)
    (hfull : ∀ j, j + 1 = i → selector.limit ≤ size - offsetAt selector j) :
    offsetAt selector i = selector.offset + i * selector.limit := by
  cases i with
  | zero =>
    unfold offsetAt
    omega
  | succ j =>
    have hle := offset_le_of_full hlimit hsize (hfull j rfl)
    unfold offsetAt
    omega

variable {selector : Selector} {size count : Nat}

theorem Covers.size_lt (h : Covers selector size count) (hlimit : 0 < selector.limit)
    (hoffset : selector.offset ≤ Selector.maxOffset) (hsize : size ≤ Selector.maxOffset) :
    size < selector.offset + count * selector.limit := by
  obtain ⟨i, rfl, hshort⟩ := h.last
  have heq := offsetAt_eq hlimit hoffset hsize (i := i) fun j hj => h.full j (by omega)
  have hstep : (i + 1) * selector.limit = i * selector.limit + selector.limit := Nat.succ_mul ..
  omega

theorem Covers.count_eq (h : Covers selector size count) (hlimit : 0 < selector.limit)
    (hoffset : selector.offset ≤ Selector.maxOffset) (hsize : size ≤ Selector.maxOffset) :
    count = windowCount selector size := by
  have hlt := h.size_lt hlimit hoffset hsize
  obtain ⟨i, rfl, _⟩ := h.last
  unfold windowCount
  cases i with
  | zero =>
    by_cases hle : selector.offset ≤ size
    · have hdiv : (size - selector.offset) / selector.limit = 0 := Nat.div_eq_of_lt (by omega)
      rw [if_pos hle, hdiv]
    · rw [if_neg hle]
  | succ j =>
    have hle := offset_le_of_full hlimit hsize (h.full j (by omega))
    have hdiv : (size - selector.offset) / selector.limit = j + 1 :=
      Nat.div_eq_of_lt_le (by omega) (by omega)
    have hreached : selector.offset ≤ size := by omega
    rw [if_pos hreached, hdiv]

theorem offset_le_of_lt_windowCount {i : Nat} (hle : selector.offset ≤ size)
    (hi : i < windowCount selector size) : selector.offset + i * selector.limit ≤ size := by
  rw [windowCount, if_pos hle] at hi
  have hdiv : i * selector.limit ≤ (size - selector.offset) / selector.limit * selector.limit :=
    Nat.mul_le_mul_right _ (by omega)
  have hbelow := Nat.div_mul_le_self (size - selector.offset) selector.limit
  omega

/-- The windows tile what is left of the collection, its end included. -/
theorem existsUnique_window (selector : Selector) {size m : Nat} (hlimit : 0 < selector.limit)
    (hlow : selector.offset ≤ m) (hhigh : m ≤ size) :
    ∃! i, i < windowCount selector size ∧ selector.offset + i * selector.limit ≤ m ∧
      m < selector.offset + (i + 1) * selector.limit := by
  have hle : (m - selector.offset) / selector.limit ≤ (size - selector.offset) / selector.limit :=
    Nat.div_le_div_right (by omega)
  have hbelow := Nat.div_mul_le_self (m - selector.offset) selector.limit
  have habove := Nat.lt_div_mul_add hlimit (a := m - selector.offset)
  have hstep : ((m - selector.offset) / selector.limit + 1) * selector.limit =
      (m - selector.offset) / selector.limit * selector.limit + selector.limit := Nat.succ_mul ..
  have hreached : selector.offset ≤ size := by omega
  refine ⟨(m - selector.offset) / selector.limit, ⟨?_, by omega, by omega⟩, ?_⟩
  · rw [windowCount, if_pos hreached]
    omega
  · rintro j ⟨_, hfrom, hto⟩
    exact (Nat.div_eq_of_lt_le (by omega) (by omega)).symm

variable {n : Nat} {state : σ}

theorem length_results (walk : Walk σ) (kind : Kind) :
    (walk.results kind).length = walk.exchanges.length := List.length_map ..

/-- What is known of a walk of a collection that is served. -/
structure Serving (client : Client) (selector : Selector) (records : List Record)
    (walk : Walk σ) : Prop where
  lawful : walk.Lawful client selector
  results : List.Forall₂ (fun i result => ∃ total, result =
      .ok ⟨window selector.limit (offsetAt selector i) records, total⟩)
    (List.range walk.exchanges.length) (walk.results selector.kind)
  limit : 0 < selector.limit
  offset : selector.offset ≤ Selector.maxOffset
  size : records.length ≤ Selector.maxOffset

namespace Serving

variable {walk : Walk σ} (h : Serving client selector records walk)
include h

theorem getElem_results {i : Nat} (hi : i < (walk.results selector.kind).length) :
    ∃ total, (walk.results selector.kind)[i] =
      .ok ⟨window selector.limit (offsetAt selector i) records, total⟩ := by
  have hrange : i < (List.range walk.exchanges.length).length := by
    rwa [List.length_range, ← length_results walk selector.kind]
  simpa using (List.forall₂_iff_get.mp h.results).2 i hrange hi

theorem full_iff {i : Nat} (hi : i < (walk.results selector.kind).length) :
    PageResult.Full selector.limit (walk.results selector.kind)[i] ↔
      selector.limit ≤ records.length - offsetAt selector i := by
  obtain ⟨total, htotal⟩ := h.getElem_results hi
  rw [htotal, PageResult.Full, length_window]
  omega

theorem full {i : Nat} (hi : i + 1 < walk.exchanges.length) :
    selector.limit ≤ records.length - offsetAt selector i := by
  have hlength := length_results walk selector.kind
  have hdrop : i < (walk.results selector.kind).dropLast.length := by
    rw [List.length_dropLast]
    omega
  have hfull := h.lawful.full _ (List.getElem_mem hdrop)
  rwa [List.getElem_dropLast, h.full_iff] at hfull

theorem offsetAt_eq {i : Nat} (hi : i < walk.exchanges.length) :
    Walk.offsetAt selector i = selector.offset + i * selector.limit :=
  Walk.offsetAt_eq h.limit h.offset h.size fun _ hj => h.full (by omega)

/-- What was handed out and what is left of the current page are the records of all windows. -/
theorem items_eq : walk.items.reduceOption ++ walk.pager.page.map .ok =
    ((records.drop selector.offset).take (walk.exchanges.length * selector.limit)).map .ok := by
  have hwindows : (List.range walk.exchanges.length).flatMap
      (fun i => window selector.limit (Walk.offsetAt selector i) records) =
        (records.drop selector.offset).take (walk.exchanges.length * selector.limit) := by
    rw [← flatMap_window]
    exact List.flatMap_congr fun i hi => by rw [h.offsetAt_eq (List.mem_range.mp hi)]
  rw [h.lawful.items_eq, flatMap_items_of_windows h.results, hwindows]

theorem covers (hended : walk.pager.Ended) :
    Covers selector records.length walk.exchanges.length := by
  have hlength := length_results walk selector.kind
  obtain ⟨result, hlast, hshort⟩ := h.lawful.finished_iff.mp hended.2
  obtain ⟨hlt, hresult⟩ := List.getElem?_eq_some_iff.mp (List.getLast?_eq_getElem? ▸ hlast)
  rw [← hresult, h.full_iff] at hshort
  exact ⟨fun i hi => h.full hi, (walk.results selector.kind).length - 1, by omega, by omega⟩

/-- Before more items are asked for than there are records, the walk ends. -/
theorem ended (hlength : walk.items.length = n) (hn : records.length - selector.offset < n) :
    walk.pager.Ended := by
  have hle : walk.items.reduceOption.length ≤ records.length - selector.offset := by
    have hlengths := congrArg List.length h.items_eq
    rw [List.length_append, List.length_map, List.length_map, List.length_take,
      List.length_drop] at hlengths
    omega
  -- A walk that has not ended has handed out an item on every call, more than there are records.
  by_contra hnot
  have hsome : ∀ item ∈ walk.items, item.isSome := by
    intro item hitem
    cases item with
    | none => exact absurd (h.lawful.ended none hitem (by simp)) hnot
    | some item => rfl
  have hall := List.reduceOption_length_eq_iff.mpr hsome
  omega

/-- In the end all records from the offset on were handed out. -/
theorem items_of_ended (hended : walk.pager.Ended) :
    walk.items.reduceOption = (records.drop selector.offset).map .ok := by
  have hall := h.items_eq
  have hlt := (h.covers hended).size_lt h.limit h.offset h.size
  have htake : (records.drop selector.offset).take (walk.exchanges.length * selector.limit) =
      records.drop selector.offset := by
    apply List.take_of_length_le
    rw [List.length_drop]
    omega
  rwa [hended.1, List.map_nil, List.append_nil, htake] at hall

end Serving

theorem serving_after {config : Config} (hclient : Client.ofConfig config = .ok client)
    (hserves : transport.Serves TellsTotal client selector values)
    (hreads : List.Forall₂ (ReadsAlone selector.kind none) values records)
    (hids : (records.map Record.id).Nodup) (hsize : values.length ≤ Selector.maxOffset)
    (hoffset : selector.offset ≤ Selector.maxOffset) (hlimit : 0 < selector.limit) (state : σ)
    (n : Nat) : Serving client selector records (after transport client selector state n) where
  lawful := after_lawful state hoffset hlimit n
  results := forall₂_results hclient hserves hreads hids hoffset hlimit state n
  limit := hlimit
  offset := hoffset
  size := hreads.length_eq ▸ hsize

/-- Walking a collection that is served hands out every record from the offset on, and nothing more,
if its pages tell no total or an integer. It takes one request for each full window and one for the
last, which ask for offsets that follow each other by the limit; these windows tile what is left of
the collection. -/
theorem after_of_serves {config : Config} (hclient : Client.ofConfig config = .ok client)
    (hserves : transport.Serves TellsTotal client selector values)
    (hreads : List.Forall₂ (ReadsAlone selector.kind none) values records)
    (hids : (records.map Record.id).Nodup) (hsize : values.length ≤ Selector.maxOffset)
    (hoffset : selector.offset ≤ Selector.maxOffset) (hlimit : 0 < selector.limit) (state : σ)
    (hn : values.length - selector.offset < n) :
    let walk := after transport client selector state n
    let count := windowCount selector values.length
    walk.items = (records.drop selector.offset).map (fun record => some (.ok record)) ++
        List.replicate (n - (values.length - selector.offset)) none ∧
      walk.pager.Ended ∧
      walk.exchanges.length = count ∧
      (∀ (i : Nat) (exchange : Exchange), walk.exchanges[i]? = some exchange →
        exchange.request.AsksFor client
          { selector with offset := selector.offset + i * selector.limit }) ∧
      (selector.offset ≤ values.length →
        (∀ i < count, selector.offset + i * selector.limit ≤ values.length) ∧
        ∀ m, selector.offset ≤ m → m ≤ values.length →
          ∃! i, i < count ∧ selector.offset + i * selector.limit ≤ m ∧
            m < selector.offset + (i + 1) * selector.limit) ∧
      Pager.collect (Pager.take transport n (Pager.start client selector) state).1 =
        .ok (records.drop selector.offset) := by
  intro walk count
  have hlength : values.length = records.length := hreads.length_eq
  have hserving : Serving client selector records walk :=
    serving_after hclient hserves hreads hids hsize hoffset hlimit state n
  have hitems : walk.items.length = n := length_items_after state n
  have hended := hserving.ended hitems (hlength ▸ hn)
  have hreduced := hserving.items_of_ended hended
  have hcount : walk.exchanges.length = count := by
    rw [(hserving.covers hended).count_eq hlimit hoffset hserving.size, ← hlength]
  refine ⟨?_, hended, hcount, ?_, ?_, ?_⟩
  · obtain ⟨k, hk⟩ : ∃ k, walk.items =
        walk.items.reduceOption.map some ++ List.replicate k none :=
      exists_items_eq state hoffset hlimit n
    rw [hreduced, List.map_map] at hk
    have hk' : k = n - (values.length - selector.offset) := by
      have hlengths := congrArg List.length hk
      rw [hitems, List.length_append, List.length_map, List.length_drop,
        List.length_replicate] at hlengths
      omega
    rw [hk, hk']
    rfl
  · intro i exchange hi
    have heq : Walk.offsetAt selector i = selector.offset + i * selector.limit :=
      hserving.offsetAt_eq (List.getElem?_eq_some_iff.mp hi).1
    rw [← heq]
    exact hserving.lawful.asksFor hclient hi
  · intro hle
    exact ⟨fun i hi => offset_le_of_lt_windowCount hle hi,
      fun m => existsUnique_window selector hlimit⟩
  · rw [take_start transport client hoffset hlimit, hreduced, collect_map_ok]

end Walk

/-- The number that the query of a request gives under a name. -/
def askedNumber (request : Request) (name : String) : Nat :=
  let pairs := ((Url.queryText request.url.text).map Form.decodePairs).getD []
  Nat.ofDigitChars 10 ((pairs.lookup name).join.getD "").toList 0

theorem askedNumber_eq {request : Request} {client : Client} {selector : Selector}
    (h : request.AsksFor client selector) :
    askedNumber request "page[offset]" = selector.offset ∧
      askedNumber request "page[limit]" = selector.limit := by
  unfold askedNumber
  rw [h.pairs_eq, Option.getD_some]
  by_cases hnone : selector.including = [] <;> cases selector.filter <;>
    cases selector.sorting <;> simp [hnone, List.lookup_cons]

/-- A page with these resources and further members. -/
def pageOf (further : Members Value) (values : List Value) : Value :=
  .object (("data", .array values) :: further)

/-- Answers each request with the window of the resources that its query asks for. -/
def Transport.holding (further : Members Value) (values : List Value) : Transport Unit where
  answer _ request :=
    let limit := askedNumber request "page[limit]"
    let offset := askedNumber request "page[offset]"
    (.ok ⟨200, (pageOf further (window limit offset values)).toBytes⟩, ())

theorem isPage_pageOf {p : Value → Prop} {room : Nat} (hroom : room + 2 = Node.maxDepth)
    {further : Members Value} (hfurther : ∀ m ∈ further, m.2.Plain (room + 1))
    (hdata : "data" ∉ Members.names further) (hincluded : "included" ∉ Members.names further)
    {values : List Value} (hplain : ∀ v ∈ values, v.Plain room) (hp : p (pageOf further values)) :
    IsPage p values (pageOf further values).toBytes := by
  have hpage : (pageOf further values).Plain Node.maxDepth := by
    rw [← hroom]
    refine .object (room + 1) _ (List.forall_mem_cons.mpr ⟨?_, hfurther⟩)
    exact .array room values hplain
  refine ⟨("data", .array values) :: further, ?_, ?_, ?_, ?_, hp⟩
  · rw [Json.readWith_toBytes hpage, Node.value_tree hpage]
    rfl
  · rw [Members.names, List.map_cons, List.count_cons_self, ← Members.names,
      List.count_eq_zero.mpr hdata]
  · rw [Members.get?_cons, (Members.get?_eq_none_iff ..).mpr hdata]
    rfl
  · rw [Members.get?_cons, (Members.get?_eq_none_iff ..).mpr hincluded]
    rfl

theorem serves_holding {p : Value → Prop} (client : Client) (selector : Selector) {room : Nat}
    (hroom : room + 2 = Node.maxDepth) {further : Members Value}
    (hfurther : ∀ m ∈ further, m.2.Plain (room + 1)) (hdata : "data" ∉ Members.names further)
    (hincluded : "included" ∉ Members.names further) {values : List Value}
    (hplain : ∀ v ∈ values, v.Plain room) (hp : ∀ some : List Value, p (pageOf further some)) :
    (Transport.holding further values).Serves p client selector values := by
  intro _ offset request _ hasks
  obtain ⟨hoffset, hlimit⟩ := askedNumber_eq hasks
  have hanswer : ((Transport.holding further values).answer () request).1 =
      .ok ⟨200, (pageOf further (window selector.limit offset values)).toBytes⟩ := by
    show Except.ok _ = _
    rw [hoffset, hlimit]
  refine ⟨200, _, by decide, hanswer, ?_⟩
  exact isPage_pageOf hroom hfurther hdata hincluded
    (fun v hv => hplain v ((Walk.window_sublist ..).subset hv)) (hp _)

namespace Walk

/-- The grant with this id. -/
def grantValue (id : String) : Value := .object [("id", .string id), ("type", .string "grant")]

theorem plain_grantValue (room : Nat) (id : String) : (grantValue id).Plain (room + 1) := by
  simp [grantValue]

theorem exists_readsAlone_grantValue (id : String)
    (h : (Document.readOne .grant
      (Value.toBytes (.object [("data", grantValue id)]))).toOption.join.map Record.id =
        some (some id)) :
    ∃ record, ReadsAlone .grant none (grantValue id) record ∧ record.id = some id := by
  obtain ⟨record, hrecord, hid⟩ := Option.map_eq_some_iff.mp h
  have hplain : (Value.object [("data", grantValue id)]).Plain Node.maxDepth :=
    .object 126 _ (by simpa using plain_grantValue 125 id)
  refine ⟨record, ⟨_, [("data", grantValue id)], ?_, rfl, rfl,
    (toOption_join_eq_some ..).mp hrecord⟩, hid⟩
  rw [Json.readWith_toBytes hplain, Node.value_tree hplain]

theorem serves_grants {p : Value → Prop} {further : Members Value}
    (hfurther : ∀ m ∈ further, m.2.Plain 126) (hdata : "data" ∉ Members.names further)
    (hincluded : "included" ∉ Members.names further) (ids : List String)
    (hp : ∀ values : List Value, p (pageOf further values)) :
    (Transport.holding further (ids.map grantValue)).Serves p Client.loopback oneByOne
      (ids.map grantValue) := by
  have hroom : 125 + 2 = Node.maxDepth := rfl
  refine serves_holding Client.loopback oneByOne hroom hfurther hdata hincluded ?_ hp
  intro v hv
  obtain ⟨id, _, rfl⟩ := List.mem_map.mp hv
  exact plain_grantValue 124 id

theorem after_of_serves_twoGrants : ∃ records : List Record,
    let values := ["1", "2"].map grantValue
    let transport := Transport.holding [("meta", .null)] values
    let walk := after transport Client.loopback oneByOne () 3
    Client.ofConfig Client.loopbackConfig = .ok Client.loopback ∧
      transport.Serves TellsTotal Client.loopback oneByOne values ∧
      List.Forall₂ (ReadsAlone .grant none) values records ∧
      records.map Record.id = [some "1", some "2"] ∧
      walk.items = records.map (fun record => some (.ok record)) ++ [none] ∧
      walk.exchanges.length = 3 ∧ walk.pager.Ended := by
  obtain ⟨first, hfirst, hone⟩ := exists_readsAlone_grantValue "1" (by decide +kernel)
  obtain ⟨second, hsecond, htwo⟩ := exists_readsAlone_grantValue "2" (by decide +kernel)
  refine ⟨[first, second], ?_⟩
  intro values transport walk
  have hserves : transport.Serves TellsTotal Client.loopback oneByOne values := by
    refine serves_grants ?_ (by decide) (by decide) _ fun values => ⟨.inl ⟨_, rfl⟩, ?_, ?_⟩
    · intro m hm
      obtain rfl := List.mem_singleton.mp hm
      exact .null _
    · rintro _ ⟨⟩
      simp [Members.names]
    · rintro _ ⟨⟩
      exact .inl rfl
  have hreads : List.Forall₂ (ReadsAlone .grant none) values [first, second] :=
    .cons hfirst (.cons hsecond .nil)
  have hids : [first, second].map Record.id = [some "1", some "2"] := by simp [hone, htwo]
  have hnodup : ([first, second].map Record.id).Nodup := by
    rw [hids]
    decide
  obtain ⟨hitems, hended, hcount, _⟩ := after_of_serves Client.ofConfig_loopbackConfig hserves
    hreads hnodup (by decide) (by decide) (by decide) () (n := 3) (by decide)
  have hthree : windowCount oneByOne values.length = 3 := by decide
  exact ⟨Client.ofConfig_loopbackConfig, hserves, hreads, hids, hitems, hcount.trans hthree, hended⟩

/-- The paging of a page is told as a text here. -/
def textPaging : Members Value := [("meta", .object [("page", .string "2")])]

/-- A repository that answers as it is asked, but whose total cannot be read. The one record it has
is not handed out. -/
theorem after_of_serves_textPaging : ∃ record,
    let values := ["1"].map grantValue
    let transport := Transport.holding textPaging values
    let walk := after transport Client.loopback oneByOne () 2
    Client.ofConfig Client.loopbackConfig = .ok Client.loopback ∧
      transport.Serves (fun _ => True) Client.loopback oneByOne values ∧
      List.Forall₂ (ReadsAlone .grant none) values [record] ∧ record.id = some "1" ∧
      oneByOne.offset = 0 ∧ oneByOne.limit = 1 ∧
      (∃ fault, walk.items = [some (.error fault), none]) ∧
      walk.items ≠ [some (.ok record), none] := by
  obtain ⟨record, hrecord, hid⟩ := exists_readsAlone_grantValue "1" (by decide +kernel)
  refine ⟨record, ?_⟩
  intro values transport walk
  have hplain : ∀ m ∈ textPaging, m.2.Plain 126 := by simp [textPaging]
  have hserves : transport.Serves (fun _ => True) Client.loopback oneByOne values :=
    serves_grants hplain (by decide) (by decide) _ fun _ => trivial
  have hitems : ∃ fault, walk.items = [some (.error fault), none] := by
    have hshape : walk.items.map (·.map Except.isOk) = [some false, none] := by decide +kernel
    obtain ⟨first, rest, hitems, hfirst, hrest⟩ := List.map_eq_cons_iff.mp hshape
    obtain ⟨second, last, rfl, hsecond, hlast⟩ := List.map_eq_cons_iff.mp hrest
    obtain rfl := List.map_eq_nil_iff.mp hlast
    obtain rfl := Option.map_eq_none_iff.mp hsecond
    obtain ⟨item, rfl, hitem⟩ := Option.map_eq_some_iff.mp hfirst
    cases item with
    | ok record => cases hitem
    | error fault => exact ⟨fault, hitems⟩
  refine ⟨Client.ofConfig_loopbackConfig, hserves, .cons hrecord .nil, hid, rfl, rfl, hitems, ?_⟩
  obtain ⟨fault, hfault⟩ := hitems
  rw [hfault]
  simp

end Walk

end ResearchRecords
