import Mathlib.Data.List.ReduceOption
import Mathlib.Logic.Function.Iterate
import ResearchRecords.Client.Pager
import ResearchRecords.Proofs.Client.Queries

/-!
Walking the pages of a selection, whatever the repository answers. The pager is asked for one item
after the other, and what it sends is recorded. The items handed out, with those left of the current
page, are those of all pages received so far; a page is requested when all before it were full and
handed out, and its offset depends on its number only. After a page that is short or fails, nothing
is requested any more.
-/
namespace ResearchRecords

open Results
open Text (Form.decodePairs)

variable {σ : Type}

/-- A request with what came of it. -/
structure Exchange where
  request : Request
  outcome : Outcome

/-- The same transport, with a record of what was exchanged. -/
def Transport.recorded (transport : Transport σ) : Transport (σ × List Exchange) where
  answer state request :=
    let (outcome, next) := transport.answer state.1 request
    (outcome, (next, state.2 ++ [⟨request, outcome⟩]))

/-- What fetching a page gives. -/
abbrev PageResult := Except ClientFault Page

namespace PageResult

/-- The items that are handed out for a page. -/
def items : PageResult → List PagerItem
  | .ok page => page.records.map .ok
  | .error fault => [.error fault]

/-- The page was received and has as many records as were asked for. -/
def Full (limit : Nat) : PageResult → Prop
  | .ok page => limit ≤ page.records.length
  | .error _ => False

/-- The pages that were received. -/
def received (results : List PageResult) : List Page := results.filterMap Except.toOption

theorem received_append (results others : List PageResult) :
    received (results ++ others) = received results ++ received others := List.filterMap_append

theorem length_received_of_full {limit : Nat} {results : List PageResult}
    (h : ∀ result ∈ results, Full limit result) : (received results).length = results.length := by
  induction results with
  | nil => rfl
  | cons result rest ih =>
    obtain ⟨hresult, hrest⟩ := List.forall_mem_cons.mp h
    cases result with
    | error fault => exact hresult.elim
    | ok page =>
      have hcons : received (.ok page :: rest) = page :: received rest := rfl
      rw [hcons, List.length_cons, List.length_cons, ih hrest]

end PageResult

namespace Pager

/-- The next item by rounds: a record of the current page, or nothing more, or else a page is
fetched for the next round. -/
def rounds (transport : Transport σ) : Nat → Pager → σ → Option ((Option PagerItem × Pager) × σ)
  | 0, _, _ => none
  | fuel + 1, pager, state =>
    match pager.page with
    | record :: rest => some ((some (.ok record), { pager with page := rest }), state)
    | [] =>
      if pager.finished then some ((none, pager), state)
      else
        let selector := pager.upcoming
        match (pager.client.select selector).run transport state with
        | (.error fault, state) =>
          some ((some (.error fault), { pager with selector, finished := true }), state)
        | (.ok page, state) =>
          rounds transport fuel
            { pager with
              selector
              page := page.records
              pagesFetched := pager.pagesFetched + 1
              estimatedTotal := page.total
              finished := decide (page.records.length < selector.limit) } state

/-- Two rounds are enough, since a page without records is the last. -/
theorem rounds_eq_next (transport : Transport σ) (fuel : Nat) (pager : Pager) (state : σ) :
    rounds transport (fuel + 2) pager state = some (pager.next.run transport state) := by
  obtain ⟨client, selector, page, fetched, total, finished⟩ := pager
  rw [rounds, next]
  cases page with
  | cons record rest => rfl
  | nil =>
    cases finished with
    | true => rfl
    | false =>
      simp only [Bool.false_eq_true, if_false]
      generalize upcoming ⟨client, selector, [], fetched, total, false⟩ = selection
      by_cases hlimit : 0 < selection.limit
      · rw [client.select_eq hlimit]
        simp only [Call.map, Call.run]
        cases Client.readPage selection.kind (client.pageRequest selection)
            (transport.answer state (client.pageRequest selection)).1 with
        | error fault => rfl
        | ok page =>
          obtain ⟨records, estimate⟩ := page
          cases records with
          | nil => simp [rounds, receive, hlimit]
          | cons record rest => simp [rounds, receive]
      · rw [client.select_of_not_valid hlimit]
        rfl

variable (pager : Pager) (selector : Selector) (result : PageResult)

@[simp] theorem receive_client : (pager.receive selector result).2.client = pager.client := by
  rcases result with fault | ⟨records, total⟩
  · rfl
  · cases records <;> rfl

@[simp] theorem receive_selector : (pager.receive selector result).2.selector = selector := by
  rcases result with fault | ⟨records, total⟩
  · rfl
  · cases records <;> rfl

theorem receive_items (hpage : pager.page = []) :
    (pager.receive selector result).1.toList ++
      (pager.receive selector result).2.page.map .ok = PageResult.items result := by
  rcases result with fault | ⟨records, total⟩
  · simp [receive, PageResult.items, hpage]
  · cases records with
    | nil => simp [receive, PageResult.items, hpage]
    | cons record rest => simp [receive, PageResult.items]

theorem receive_finished : (pager.receive selector result).2.finished = true ↔
    ¬ PageResult.Full selector.limit result := by
  rcases result with fault | ⟨records, total⟩
  · simp [receive, PageResult.Full]
  · cases records <;> simp [receive, PageResult.Full, Nat.pos_iff_ne_zero]

theorem receive_pagesFetched : (pager.receive selector result).2.pagesFetched =
    pager.pagesFetched + (PageResult.received [result]).length := by
  rcases result with fault | ⟨records, total⟩
  · rfl
  · cases records <;> rfl

theorem receive_estimatedTotal : (pager.receive selector result).2.estimatedTotal =
    ((PageResult.received [result]).getLast?.map Page.total).getD pager.estimatedTotal := by
  rcases result with fault | ⟨records, total⟩
  · rfl
  · cases records <;> rfl

/-- Nothing is left to hand out or to fetch. -/
def Ended (pager : Pager) : Prop := pager.page = [] ∧ pager.finished = true

theorem receive_ended (hpage : pager.page = []) (hlimit : 0 < selector.limit)
    (hitem : ∀ record, (pager.receive selector result).1 ≠ some (.ok record)) :
    (pager.receive selector result).2.Ended := by
  rcases result with fault | ⟨records, total⟩
  · exact ⟨hpage, rfl⟩
  · cases records with
    | nil => exact ⟨hpage, decide_eq_true hlimit⟩
    | cons record rest => exact absurd rfl (hitem record)

end Pager

/-- The selection of the page with a number, the first being zero. -/
def Selector.atPage (selector : Selector) (i : Nat) : Selector :=
  { selector with offset := min (selector.offset + i * selector.limit) Selector.maxOffset }

theorem Selector.atPage_zero {selector : Selector} (h : selector.offset ≤ maxOffset) :
    selector.atPage 0 = selector := by
  have hoffset : min (selector.offset + 0 * selector.limit) maxOffset = selector.offset := by omega
  rw [atPage, hoffset]

theorem Selector.nextPage_atPage (selector : Selector) (i : Nat) :
    (selector.atPage i).nextPage = selector.atPage (i + 1) := by
  have hstep : (i + 1) * selector.limit = i * selector.limit + selector.limit := Nat.succ_mul ..
  have hoffset : min (min (selector.offset + i * selector.limit) maxOffset + selector.limit)
      maxOffset = min (selector.offset + (i + 1) * selector.limit) maxOffset := by omega
  simp only [nextPage, atPage, hoffset]

/-- A pager that has been asked for some items, with what it handed out and exchanged so far. -/
structure Walk (σ : Type) where
  pager : Pager
  state : σ
  exchanges : List Exchange
  items : List (Option PagerItem)

namespace Walk

def start (client : Client) (selector : Selector) (state : σ) : Walk σ :=
  ⟨Pager.start client selector, state, [], []⟩

/-- Asks for one more item. -/
def turn (transport : Transport σ) (walk : Walk σ) : Walk σ :=
  let run := walk.pager.next.run transport.recorded (walk.state, walk.exchanges)
  ⟨run.1.2, run.2.1, run.2.2, walk.items ++ [run.1.1]⟩

/-- The walk of a selection after so many turns. -/
def after (transport : Transport σ) (client : Client) (selector : Selector) (state : σ) (n : Nat) :
    Walk σ :=
  (turn transport)^[n] (start client selector state)

/-- What the responses are read as. -/
def results (walk : Walk σ) (kind : Kind) : List PageResult :=
  walk.exchanges.map fun exchange => Client.readPage kind exchange.request exchange.outcome

variable {transport : Transport σ} {walk : Walk σ}

theorem turn_of_page {record : Record} {rest : List Record}
    (hpage : walk.pager.page = record :: rest) :
    walk.turn transport =
      { walk with
        pager := { walk.pager with page := rest }
        items := walk.items ++ [some (.ok record)] } := by
  rw [turn, Pager.next, hpage]
  rfl

theorem turn_of_ended (h : walk.pager.Ended) :
    walk.turn transport = { walk with items := walk.items ++ [none] } := by
  rw [turn, Pager.next, h.1]
  simp only [h.2, if_true]
  rfl

/-- What a page is read as when it is fetched. -/
def fetchResult (transport : Transport σ) (selector : Selector) (walk : Walk σ) : PageResult :=
  let request := walk.pager.client.pageRequest selector
  Client.readPage selector.kind request (transport.answer walk.state request).1

/-- What fetching a page leads to. -/
def fetch (transport : Transport σ) (selector : Selector) (walk : Walk σ) : Walk σ :=
  let request := walk.pager.client.pageRequest selector
  let answer := transport.answer walk.state request
  let received := walk.pager.receive selector (walk.fetchResult transport selector)
  ⟨received.2, answer.2, walk.exchanges ++ [⟨request, answer.1⟩], walk.items ++ [received.1]⟩

theorem turn_of_fetch {selector : Selector} (hpage : walk.pager.page = [])
    (hfinished : walk.pager.finished = false) (hupcoming : walk.pager.upcoming = selector)
    (hlimit : 0 < selector.limit) : walk.turn transport = walk.fetch transport selector := by
  rw [turn, Pager.next, hpage]
  simp only [hfinished, Bool.false_eq_true, if_false]
  rw [hupcoming, Client.select_eq _ hlimit]
  rfl

theorem results_fetch (selector : Selector) :
    (walk.fetch transport selector).results selector.kind =
      walk.results selector.kind ++ [walk.fetchResult transport selector] := by
  rw [results, fetch, List.map_append]
  rfl

theorem reduceOption_concat {α : Type} (items : List (Option α)) (item : Option α) :
    (items ++ [item]).reduceOption = items.reduceOption ++ item.toList := by
  rw [← List.concat_eq_append, List.reduceOption_concat]

/-- The laws of a walk: which requests were sent, what was handed out for their results, and what
the pager keeps count of. -/
structure Lawful (client : Client) (selector : Selector) (walk : Walk σ) : Prop where
  client_eq : walk.pager.client = client
  selector_eq : walk.pager.selector = selector.atPage (walk.exchanges.length - 1)
  requests_eq : walk.exchanges.map Exchange.request =
    (List.range walk.exchanges.length).map fun i => client.pageRequest (selector.atPage i)
  items_eq : walk.items.reduceOption ++ walk.pager.page.map .ok =
    (walk.results selector.kind).flatMap PageResult.items
  full : ∀ result ∈ (walk.results selector.kind).dropLast, PageResult.Full selector.limit result
  finished_iff : walk.pager.finished = true ↔
    ∃ result, (walk.results selector.kind).getLast? = some result ∧
      ¬ PageResult.Full selector.limit result
  pagesFetched_eq :
    walk.pager.pagesFetched = (PageResult.received (walk.results selector.kind)).length
  estimatedTotal_eq : walk.pager.estimatedTotal =
    ((PageResult.received (walk.results selector.kind)).getLast?.map Page.total).getD (-1)
  ended : ∀ item ∈ walk.items, (∀ record, item ≠ some (.ok record)) → walk.pager.Ended

variable {client : Client} {selector : Selector}

theorem start_lawful (state : σ) (hoffset : selector.offset ≤ Selector.maxOffset) :
    (start client selector state).Lawful client selector where
  client_eq := rfl
  selector_eq := (Selector.atPage_zero hoffset).symm
  requests_eq := rfl
  items_eq := rfl
  full _ h := absurd h List.not_mem_nil
  finished_iff := by simp [start, Pager.start, results]
  pagesFetched_eq := rfl
  estimatedTotal_eq := rfl
  ended _ h := absurd h List.not_mem_nil

theorem Lawful.all_full (h : walk.Lawful client selector)
    (hfinished : walk.pager.finished = false) :
    ∀ result ∈ walk.results selector.kind, PageResult.Full selector.limit result := by
  have hfull := h.full
  have hfinal := h.finished_iff
  rcases List.eq_nil_or_concat' (walk.results selector.kind) with hnil | ⟨front, last, hlast⟩
  · simp [hnil]
  · rw [hlast, List.dropLast_concat] at hfull
    rw [hlast, List.getLast?_concat] at hfinal
    intro result hresult
    rw [hlast] at hresult
    rcases List.mem_append.mp hresult with hfront | hsingle
    · exact hfull result hfront
    · obtain rfl := List.mem_singleton.mp hsingle
      by_contra hshort
      rw [hfinal.mpr ⟨result, rfl, hshort⟩] at hfinished
      exact Bool.noConfusion hfinished

theorem Lawful.upcoming_eq (h : walk.Lawful client selector)
    (hfinished : walk.pager.finished = false) :
    walk.pager.upcoming = selector.atPage walk.exchanges.length := by
  have hcount : walk.pager.pagesFetched = walk.exchanges.length := by
    rw [h.pagesFetched_eq, PageResult.length_received_of_full (h.all_full hfinished), results,
      List.length_map]
  rw [Pager.upcoming, hcount, h.selector_eq]
  by_cases hnone : walk.exchanges.length = 0
  · rw [if_pos hnone, hnone]
  · have hlast : walk.exchanges.length - 1 + 1 = walk.exchanges.length := by omega
    rw [if_neg hnone, Selector.nextPage_atPage, hlast]

theorem Lawful.of_page (h : walk.Lawful client selector) {record : Record} {rest : List Record}
    (hpage : walk.pager.page = record :: rest) :
    (walk.turn transport).Lawful client selector := by
  have hitems := h.items_eq
  rw [turn_of_page hpage]
  refine { h with items_eq := ?_, ended := ?_ }
  · change _ = (walk.results selector.kind).flatMap PageResult.items
    rw [← hitems, hpage, reduceOption_concat, List.append_assoc]
    rfl
  · intro item hitem hrecord
    rcases List.mem_append.mp hitem with hbefore | hnew
    · have hempty := (h.ended item hbefore hrecord).1
      rw [hpage] at hempty
      cases hempty
    · exact absurd (List.mem_singleton.mp hnew) (hrecord record)

theorem Lawful.of_ended (h : walk.Lawful client selector) (hended : walk.pager.Ended) :
    (walk.turn transport).Lawful client selector := by
  have hitems := h.items_eq
  rw [turn_of_ended hended]
  refine { h with items_eq := ?_, ended := ?_ }
  · change _ = (walk.results selector.kind).flatMap PageResult.items
    rw [← hitems, reduceOption_concat, Option.toList_none, List.append_nil]
  · intro _ _ _
    exact hended

theorem Lawful.of_fetch (h : walk.Lawful client selector) (hlimit : 0 < selector.limit)
    (hpage : walk.pager.page = []) (hfinished : walk.pager.finished = false) :
    (walk.turn transport).Lawful client selector := by
  rw [turn_of_fetch hpage hfinished (h.upcoming_eq hfinished) hlimit]
  have hresults : (walk.fetch transport (selector.atPage walk.exchanges.length)).results
      selector.kind = walk.results selector.kind ++
        [walk.fetchResult transport (selector.atPage walk.exchanges.length)] :=
    results_fetch (selector.atPage walk.exchanges.length)
  have hlength : (walk.fetch transport (selector.atPage walk.exchanges.length)).exchanges.length =
      walk.exchanges.length + 1 := by simp [fetch]
  -- What `receive` does to each counter is known; the results grow by one at the end.
  refine
    { client_eq := (Pager.receive_client ..).trans h.client_eq
      selector_eq := ?selector
      requests_eq := ?requests
      items_eq := ?items
      full := ?full
      finished_iff := ?finished
      pagesFetched_eq := ?pages
      estimatedTotal_eq := ?total
      ended := ?ended }
  case selector =>
    rw [hlength]
    exact Pager.receive_selector ..
  case requests =>
    rw [hlength, List.range_succ, List.map_append, ← h.requests_eq]
    simp [fetch, h.client_eq]
  case items =>
    have hitems := h.items_eq
    have hnew := Pager.receive_items walk.pager (selector.atPage walk.exchanges.length)
      (walk.fetchResult transport (selector.atPage walk.exchanges.length)) hpage
    rw [hpage, List.map_nil, List.append_nil] at hitems
    rw [hresults, List.flatMap_append, List.flatMap_singleton, ← hnew, ← hitems,
      ← List.append_assoc]
    congr 1
    exact reduceOption_concat ..
  case full =>
    rw [hresults, List.dropLast_concat]
    exact h.all_full hfinished
  case finished =>
    rw [hresults, List.getLast?_concat]
    simp only [Option.some.injEq, exists_eq_left']
    exact Pager.receive_finished ..
  case pages =>
    rw [hresults, PageResult.received_append, List.length_append, ← h.pagesFetched_eq]
    exact Pager.receive_pagesFetched ..
  case total =>
    rw [hresults, PageResult.received_append, List.getLast?_append]
    have hlast := Pager.receive_estimatedTotal walk.pager (selector.atPage walk.exchanges.length)
      (walk.fetchResult transport (selector.atPage walk.exchanges.length))
    rw [h.estimatedTotal_eq] at hlast
    refine hlast.trans ?_
    cases (PageResult.received
      [walk.fetchResult transport (selector.atPage walk.exchanges.length)]).getLast? <;> rfl
  case ended =>
    intro item hitem hrecord
    rcases List.mem_append.mp hitem with hbefore | hnew
    · have hover := (h.ended item hbefore hrecord).2
      rw [hfinished] at hover
      cases hover
    · obtain rfl := List.mem_singleton.mp hnew
      exact Pager.receive_ended _ _ _ hpage hlimit hrecord

/-- Every turn keeps the laws. -/
theorem Lawful.of_turn (h : walk.Lawful client selector) (hlimit : 0 < selector.limit) :
    (walk.turn transport).Lawful client selector := by
  cases hpage : walk.pager.page with
  | cons record rest => exact h.of_page hpage
  | nil =>
    cases hfinished : walk.pager.finished with
    | true => exact h.of_ended ⟨hpage, hfinished⟩
    | false => exact h.of_fetch hlimit hpage hfinished

/-- A turn sends one request at most, and only when all pages before were full and have been handed
out. -/
theorem Lawful.turn_exchanges (h : walk.Lawful client selector) (hlimit : 0 < selector.limit) :
    (walk.turn transport).exchanges = walk.exchanges ∨
      (∃ exchange, (walk.turn transport).exchanges = walk.exchanges ++ [exchange]) ∧
        walk.items.reduceOption = (walk.results selector.kind).flatMap PageResult.items ∧
        ∀ result ∈ walk.results selector.kind, PageResult.Full selector.limit result := by
  cases hpage : walk.pager.page with
  | cons record rest =>
    left
    rw [turn_of_page hpage]
  | nil =>
    cases hfinished : walk.pager.finished with
    | true =>
      left
      rw [turn_of_ended ⟨hpage, hfinished⟩]
    | false =>
      right
      rw [turn_of_fetch hpage hfinished (h.upcoming_eq hfinished) hlimit]
      refine ⟨⟨_, rfl⟩, ?_, h.all_full hfinished⟩
      rw [← h.items_eq, hpage, List.map_nil, List.append_nil]

theorem after_succ (state : σ) (n : Nat) : after transport client selector state (n + 1) =
    (after transport client selector state n).turn transport :=
  Function.iterate_succ_apply' ..

theorem after_lawful (state : σ) (hoffset : selector.offset ≤ Selector.maxOffset)
    (hlimit : 0 < selector.limit) (n : Nat) :
    (after transport client selector state n).Lawful client selector := by
  induction n with
  | zero => exact start_lawful state hoffset
  | succ n ih =>
    rw [after_succ]
    exact ih.of_turn hlimit

/-- Once the walk has ended, only its calls are counted. -/
theorem iterate_turn_of_ended (h : walk.pager.Ended) (m : Nat) :
    (turn transport)^[m] walk = { walk with items := walk.items ++ List.replicate m none } := by
  induction m with
  | zero => simp
  | succ m ih =>
    have hended : ((turn transport)^[m] walk).pager.Ended := by
      rw [ih]
      exact h
    rw [Function.iterate_succ_apply', turn_of_ended hended, ih, List.replicate_succ',
      List.append_assoc]

theorem length_items_after (state : σ) (n : Nat) :
    (after transport client selector state n).items.length = n := by
  induction n with
  | zero => rfl
  | succ n ih =>
    rw [after_succ, turn, List.length_append, ih]
    rfl

theorem run_recorded {β : Type} (transport : Transport σ) (call : Call β) (state : σ)
    (exchanges : List Exchange) :
    (call.run transport.recorded (state, exchanges)).1 = (call.run transport state).1 ∧
      (call.run transport.recorded (state, exchanges)).2.1 = (call.run transport state).2 := by
  cases call with
  | done result => exact ⟨rfl, rfl⟩
  | send request next => exact ⟨rfl, rfl⟩

theorem turn_eq_run (transport : Transport σ) (walk : Walk σ) :
    (walk.pager.next.run transport walk.state).1.2 = (walk.turn transport).pager ∧
      (walk.pager.next.run transport walk.state).2 = (walk.turn transport).state ∧
      (walk.turn transport).items =
        walk.items ++ [(walk.pager.next.run transport walk.state).1.1] := by
  obtain ⟨hresult, hstate⟩ := run_recorded transport walk.pager.next walk.state walk.exchanges
  rw [turn, hresult, hstate]
  exact ⟨rfl, rfl, rfl⟩

theorem Lawful.take_eq (h : walk.Lawful client selector) (hlimit : 0 < selector.limit)
    (transport : Transport σ) (n : Nat) :
    ∃ items, Pager.take transport n walk.pager walk.state =
        (items, ((turn transport)^[n] walk).pager, ((turn transport)^[n] walk).state) ∧
      ((turn transport)^[n] walk).items.reduceOption = walk.items.reduceOption ++ items := by
  induction n generalizing walk with
  | zero => exact ⟨[], rfl, (List.append_nil _).symm⟩
  | succ n ih =>
    have hnext : (walk.turn transport).Lawful client selector := h.of_turn hlimit
    obtain ⟨hpager, hstate, hitems⟩ := turn_eq_run transport walk
    rw [Pager.take, Function.iterate_succ_apply]
    rcases hrun : walk.pager.next.run transport walk.state with ⟨⟨item, pager⟩, state⟩
    rw [hrun] at hpager hstate hitems
    obtain rfl : pager = (walk.turn transport).pager := hpager
    obtain rfl : state = (walk.turn transport).state := hstate
    cases item with
    | none =>
      have hended := hnext.ended none (by simp [hitems]) (by simp)
      rw [iterate_turn_of_ended hended, hitems]
      refine ⟨[], rfl, ?_⟩
      simp [List.reduceOption_append]
    | some item =>
      obtain ⟨items, htake, hreduce⟩ := ih hnext
      refine ⟨item :: items, ?_, ?_⟩
      · simp only [htake]
      · rw [hreduce, hitems, reduceOption_concat, List.append_assoc]
        rfl

/-- Taking items gives those that the turns hand out. -/
theorem take_start (transport : Transport σ) (client : Client)
    (hoffset : selector.offset ≤ Selector.maxOffset) (hlimit : 0 < selector.limit) (state : σ)
    (n : Nat) : (Pager.take transport n (Pager.start client selector) state).1 =
      (after transport client selector state n).items.reduceOption := by
  have hstart : (start client selector state).Lawful client selector :=
    start_lawful state hoffset
  obtain ⟨items, htake, hreduce⟩ := hstart.take_eq hlimit transport n
  exact (congrArg Prod.fst htake).trans hreduce.symm

/-- A page that fails is the last, and its fault is handed out after all records before it. -/
theorem Lawful.items_of_error (h : walk.Lawful client selector) {fault : ClientFault}
    (hfault : .error fault ∈ walk.results selector.kind) :
    ∃ front, walk.results selector.kind = front ++ [.error fault] ∧
      (∀ result ∈ front, PageResult.Full selector.limit result) ∧
      walk.items.reduceOption = front.flatMap PageResult.items ++ [.error fault] := by
  have hfull := h.full
  have hitems := h.items_eq
  obtain hnil | ⟨front, last, hlast⟩ := List.eq_nil_or_concat' (walk.results selector.kind)
  · rw [hnil] at hfault
    exact absurd hfault List.not_mem_nil
  rw [hlast] at hfault hfull hitems
  rw [List.dropLast_concat] at hfull
  obtain rfl : last = .error fault := by
    rcases List.mem_append.mp hfault with hfront | hsingle
    · exact (hfull _ hfront).elim
    · exact (List.mem_singleton.mp hsingle).symm
  refine ⟨front, hlast, hfull, ?_⟩
  rw [List.flatMap_append, List.flatMap_singleton] at hitems
  have hpage : walk.pager.page = [] := by
    rcases List.eq_nil_or_concat' walk.pager.page with hnil | ⟨before, record, hrecord⟩
    · exact hnil
    · rw [hrecord, List.map_append, ← List.append_assoc] at hitems
      have hlastItem : [Except.ok record] = [Except.error fault] := (List.append_inj' hitems rfl).2
      cases hlastItem
  rwa [hpage, List.map_nil, List.append_nil] at hitems

theorem collect_map_ok (records : List Record) :
    Pager.collect (records.map .ok) = .ok records := by
  rw [Pager.collect, mapM_eq_ok_iff, List.forall₂_map_left_iff, List.forall₂_same]
  exact fun _ _ => rfl

/-- All records of the pages, or the failure of the first page that fails. -/
theorem collect_flatMap_items (results : List PageResult) :
    Pager.collect (results.flatMap PageResult.items) =
      (fun pages => pages.flatMap Page.records) <$> results.mapM id := by
  induction results with
  | nil => rfl
  | cons result rest ih =>
    cases result with
    | error fault => rfl
    | ok page =>
      have hpage : (PageResult.items (.ok page)).mapM id = .ok page.records :=
        collect_map_ok page.records
      rw [Pager.collect] at ih ⊢
      rw [List.flatMap_cons, List.mapM_append, hpage, ih, List.mapM_cons]
      cases rest.mapM id <;> rfl

theorem Lawful.request_eq (h : walk.Lawful client selector) {i : Nat} {exchange : Exchange}
    (hi : walk.exchanges[i]? = some exchange) :
    exchange.request = client.pageRequest (selector.atPage i) := by
  obtain ⟨hlt, rfl⟩ := List.getElem?_eq_some_iff.mp hi
  have hsame := congrArg (·[i]?) h.requests_eq
  simpa [hlt] using hsame

/-- Each request asks for the page of its number, whatever was answered before it. -/
theorem Lawful.asksFor (h : walk.Lawful client selector) {config : Config}
    (hclient : Client.ofConfig config = .ok client) {i : Nat} {exchange : Exchange}
    (hi : walk.exchanges[i]? = some exchange) :
    exchange.request.AsksFor client (selector.atPage i) := by
  rw [h.request_eq hi]
  exact Client.asksFor_pageRequest hclient _

/-- What holds of every walk of a selection after any number of turns. The query of each request
tells the offset of its page, and for the rest what was selected. -/
theorem after_laws (transport : Transport σ) (client : Client) {selector : Selector}
    (hoffset : selector.offset ≤ Selector.maxOffset) (hlimit : 0 < selector.limit) (state : σ)
    (n : Nat) :
    let walk := after transport client selector state n
    let next := after transport client selector state (n + 1)
    walk.Lawful client selector ∧
      (∀ config, Client.ofConfig config = .ok client → ∀ (i : Nat) (exchange : Exchange),
        walk.exchanges[i]? = some exchange → exchange.request.AsksFor client
          { selector with offset := min (selector.offset + i * selector.limit) (2 ^ 64 - 1) }) ∧
      (∃ item, next.items = walk.items ++ [item] ∧ ∀ fuel,
        Pager.rounds transport (fuel + 2) walk.pager walk.state =
          some ((item, next.pager), next.state)) ∧
      (next.exchanges = walk.exchanges ∨
        (∃ exchange, next.exchanges = walk.exchanges ++ [exchange]) ∧
          walk.items.reduceOption = (walk.results selector.kind).flatMap PageResult.items ∧
          ∀ result ∈ walk.results selector.kind, PageResult.Full selector.limit result) ∧
      (∀ fault, .error fault ∈ walk.results selector.kind →
        ∃ front, walk.results selector.kind = front ++ [.error fault] ∧
          (∀ result ∈ front, PageResult.Full selector.limit result) ∧
          walk.items.reduceOption = front.flatMap PageResult.items ++ [.error fault]) ∧
      (∀ item ∈ walk.items, (∀ record, item ≠ some (.ok record)) →
        (∀ m, after transport client selector state (n + m) =
          { walk with items := walk.items ++ List.replicate m none }) ∧
        Pager.collect (Pager.take transport n (Pager.start client selector) state).1 =
          (fun pages => pages.flatMap Page.records) <$> (walk.results selector.kind).mapM id) ∧
      ∀ request body, Client.readPage selector.kind request (.ok ⟨404, body⟩) = .ok ⟨[], 0⟩ := by
  intro walk next
  have hlawful : walk.Lawful client selector := after_lawful state hoffset hlimit n
  have hnext : next = walk.turn transport := after_succ state n
  obtain ⟨hpager, hstate, hitems⟩ := turn_eq_run transport walk
  refine ⟨hlawful, fun config hclient i exchange => hlawful.asksFor hclient,
    ⟨_, hnext ▸ hitems, ?_⟩, hnext ▸ hlawful.turn_exchanges hlimit,
    fun fault => hlawful.items_of_error, ?_, fun _ _ => rfl⟩
  · intro fuel
    rw [Pager.rounds_eq_next, hnext, ← hpager, ← hstate]
  · intro item hitem hrecord
    have hended := hlawful.ended item hitem hrecord
    constructor
    · intro m
      have hsum : after transport client selector state (n + m) = (turn transport)^[m] walk := by
        rw [after, Nat.add_comm, Function.iterate_add_apply]
        rfl
      rw [hsum, iterate_turn_of_ended hended]
    · have hpages := hlawful.items_eq
      rw [hended.1, List.map_nil, List.append_nil] at hpages
      rw [take_start transport client hoffset hlimit, hpages, collect_flatMap_items]

/-- A page with one grant, after which the connection is dropped. -/
def oneGrant : Transport.Script :=
  ⟨[⟨200, Json.Value.toBytes (.object
    [("data", .array [.object [("id", .string "1"), ("type", .string "grant")]])])⟩], []⟩

def oneByOne : Selector := { Selector.forKind .grant with limit := 1 }

theorem after_laws_dropped :
    oneByOne.offset ≤ Selector.maxOffset ∧ 0 < oneByOne.limit ∧
      let walk := after Transport.scripted Client.loopback oneByOne oneGrant 2
      walk.Lawful Client.loopback oneByOne ∧ walk.exchanges.length = 2 ∧
        (walk.exchanges.map fun exchange =>
          (Url.queryText exchange.request.url.text).map Form.decodePairs) =
            ["0", "1"].map (fun offset => some [("page[offset]", some offset),
              ("page[limit]", some "1"), ("page[totals]", none)]) ∧
        walk.items.map (·.map fun item => item.toOption.bind Record.id) =
          [some (some "1"), some none] ∧
        (∃ fault front, walk.results .grant = front ++ [.error fault] ∧
          walk.items.reduceOption = front.flatMap PageResult.items ++ [.error fault]) ∧
        ∀ m, after Transport.scripted Client.loopback oneByOne oneGrant (2 + m) =
          { walk with items := walk.items ++ List.replicate m none } := by
  have hoffset : oneByOne.offset ≤ Selector.maxOffset := by decide
  have hlimit : 0 < oneByOne.limit := by decide
  refine ⟨hoffset, hlimit, ?_⟩
  intro walk
  obtain ⟨hlawful, hasks, _, _, herror, hended, _⟩ :=
    after_laws Transport.scripted Client.loopback hoffset hlimit oneGrant 2
  have hcount : walk.exchanges.length = 2 := by decide +kernel
  obtain ⟨first, second, hexchanges⟩ := List.length_eq_two.mp hcount
  have hasksAt := hasks Client.loopbackConfig Client.ofConfig_loopbackConfig
  have hfirst := (hasksAt 0 first (congrArg (·[0]?) hexchanges)).pairs_eq
  have hsecond := (hasksAt 1 second (congrArg (·[1]?) hexchanges)).pairs_eq
  have hids : walk.items.map (·.map fun item => item.toOption.bind Record.id) =
      [some (some "1"), some none] := by decide +kernel
  have hfailed : (walk.results .grant).map Except.isOk = [true, false] := by decide +kernel
  have hlast : some false ∈ walk.items.map (·.map fun item => item.isOk) := by decide +kernel
  obtain ⟨item, hitem, hfault⟩ := List.mem_map.mp hlast
  refine ⟨hlawful, hcount, ?_, hids, ?_, (hended item hitem ?_).1⟩
  · rw [hexchanges, List.map_cons, List.map_singleton, hfirst, hsecond]
    rfl
  · have hmem : false ∈ (walk.results .grant).map Except.isOk := by simp [hfailed]
    obtain ⟨result, hresult, hnot⟩ := List.mem_map.mp hmem
    cases result with
    | ok page => cases hnot
    | error fault =>
      obtain ⟨front, hfront, _, hitems⟩ := herror fault hresult
      exact ⟨fault, front, hfront, hitems⟩
  · rintro record rfl
    cases hfault

end Walk

end ResearchRecords
