import ResearchRecords.Client.Basic

/-!
Walking all pages of a selection. The pager hands out one record at a time and asks for a page
when it has none left. A page with fewer records than the limit is the last, and a failure ends
the walk after it is handed out.
-/
namespace ResearchRecords

structure Pager where
  client : Client
  selector : Selector
  page : List Record
  pagesFetched : Nat
  estimatedTotal : Int
  finished : Bool

/-- What is handed out: a record, or the failure of a page. -/
abbrev PagerItem := Except ClientFault Record

namespace Pager

def start (client : Client) (selector : Selector) : Pager :=
  ⟨client, selector, [], 0, Document.unknownTotal, false⟩

/-- The selection of the page that is fetched next. -/
def upcoming (pager : Pager) : Selector :=
  if pager.pagesFetched = 0 then pager.selector else pager.selector.nextPage

/-- Hands out the first record of a page that has just been fetched. -/
def receive (pager : Pager) (selector : Selector) :
    Except ClientFault Page → Option PagerItem × Pager
  | .error fault => (some (.error fault), { pager with selector, finished := true })
  | .ok page =>
    let pager :=
      { pager with
        selector
        pagesFetched := pager.pagesFetched + 1
        estimatedTotal := page.total
        finished := decide (page.records.length < selector.limit) }
    match page.records with
    | [] => (none, pager)
    | record :: rest => (some (.ok record), { pager with page := rest })

/-- The next item, if there is one. -/
def next (pager : Pager) : Call (Option PagerItem × Pager) :=
  match pager.page with
  | record :: rest => .done (some (.ok record), { pager with page := rest })
  | [] =>
    if pager.finished then .done (none, pager)
    else (pager.client.select pager.upcoming).map (pager.receive pager.upcoming)

/-- The items that so many steps hand out, up to the end of the walk. -/
def take (transport : Transport σ) : Nat → Pager → σ → List PagerItem × Pager × σ
  | 0, pager, state => ([], pager, state)
  | steps + 1, pager, state =>
    match pager.next.run transport state with
    | ((none, pager), state) => ([], pager, state)
    | ((some item, pager), state) =>
      let (items, rest) := take transport steps pager state
      (item :: items, rest)

/-- All records that were handed out, or the first failure. -/
def collect (items : List PagerItem) : Except ClientFault (List Record) := items.mapM id

end Pager

end ResearchRecords
