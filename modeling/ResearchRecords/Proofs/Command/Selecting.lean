import ResearchRecords.Command.Run
import ResearchRecords.Proofs.Client.Discipline
import ResearchRecords.Proofs.Client.Walk
import ResearchRecords.Proofs.Document.Stored
import ResearchRecords.Proofs.Json.OneLine

/-!
Selecting on the command line. A page is written with one line for each record, and each line reads
back as its record with stubs. A walk over all pages writes what selecting page after page would
write, up to the first page that is short or fails, and ends as selecting this page does. As long as
all pages are full it goes on.
-/
namespace ResearchRecords

open Results

variable {σ : Type}

/-- The options for selecting one page alone, the first being number zero. -/
def SelectOptions.page (options : SelectOptions) (i : Nat) : SelectOptions :=
  { options with
    offset := min (options.offset + i * options.limit) Selector.maxOffset
    all := false }

namespace PageResult

def records : PageResult → List Record
  | .ok page => page.records
  | .error _ => []

def fault? : PageResult → Option ClientFault
  | .ok _ => none
  | .error fault => some fault

end PageResult

/-- Fetching the pages of a selection one after the other, each by itself. -/
structure Paging (σ : Type) where
  transport : Transport σ
  client : Client
  selector : Selector
  start : σ

namespace Paging

variable (paging : Paging σ)

/-- The state of the transport before the page with a number is fetched. -/
def state : Nat → σ
  | 0 => paging.start
  | i + 1 => ((paging.client.select (paging.selector.atPage i)).run paging.transport (state i)).2

/-- What fetching the page with a number gives. -/
def page (i : Nat) : PageResult :=
  ((paging.client.select (paging.selector.atPage i)).run paging.transport (paging.state i)).1

/-- The page is received and has as many records as were asked for. -/
def Full (i : Nat) : Prop := (paging.page i).Full paging.selector.limit

/-- The records of the first pages. -/
def records (n : Nat) : List Record := (List.range n).flatMap fun i => (paging.page i).records

theorem records_succ (n : Nat) :
    paging.records (n + 1) = paging.records n ++ (paging.page n).records := by
  rw [records, List.range_succ, List.flatMap_append, List.flatMap_singleton]
  rfl

end Paging

namespace Sink

/-- The output with more text, where there is room for it. -/
def followed (sink : Sink) (text : String) : Sink := { sink with text := sink.text ++ text }

theorem followed_empty (sink : Sink) : sink.followed "" = sink := by
  rw [followed, String.append_empty]

theorem followed_followed (sink : Sink) (text further : String) :
    (sink.followed text).followed further = sink.followed (text ++ further) := by
  rw [followed, followed, followed, String.append_assoc]

theorem unbounded_followed (text : String) : unbounded.followed text = ⟨text, none⟩ := by
  rw [followed, unbounded, String.empty_append]

end Sink

namespace Command

/-- The lines of records. -/
def output (records : List Record) : String :=
  String.join (records.map fun record => compactDocument record ++ "\n")

theorem output_nil : output [] = "" := String.join_nil

theorem output_cons (record : Record) (rest : List Record) :
    output (record :: rest) = compactDocument record ++ "\n" ++ output rest := by
  rw [output, output, List.map_cons, String.join_cons]

theorem followed_output_cons (sink : Sink) (record : Record) (rest : List Record) :
    (sink.followed (compactDocument record ++ "\n")).followed (output rest) =
      sink.followed (output (record :: rest)) := by
  rw [Sink.followed_followed, output_cons]

theorem output_append (records others : List Record) :
    output (records ++ others) = output records ++ output others := by
  rw [output, output, output, List.map_append, String.join_append]

/-- A text of lines without controls, each of which reads back as its record with stubs. -/
def Lists (kind : Kind) (records : List Record) (text : String) : Prop :=
  ∃ lines : List String, text = String.join (lines.map (· ++ "\n")) ∧
    (∀ line ∈ lines, ∀ c ∈ line.toList, Json.Visible c) ∧
    List.Forall₂ (fun record line =>
      Document.readOne kind (Text.Utf8.encode line) = .ok (some record.stubbed)) records lines

theorem lists_output {kind : Kind} {records : List Record}
    (h : ∀ record ∈ records, record.kind = kind ∧ record.Stored) :
    Lists kind records (output records) := by
  refine ⟨records.map compactDocument, ?_, ?_, ?_⟩
  · rw [output, List.map_map]
    rfl
  · intro line hline
    obtain ⟨record, _, rfl⟩ := List.mem_map.mp hline
    exact (Document.durable_ofRecord .brief record).plain.visible_compact
  · rw [List.forall₂_map_right_iff, List.forall₂_same]
    intro record hrecord
    obtain ⟨rfl, hstored⟩ := h record hrecord
    exact Document.readOne_of_stored .brief hstored

theorem writeDocument_of_unlimited {sink : Sink} (h : sink.capacity = none) (document : String) :
    sink.writeDocument document = (sink.followed (document ++ "\n"), none) := by
  obtain ⟨text, capacity⟩ := sink
  obtain rfl : capacity = none := h
  simp [Sink.writeDocument, Sink.write?, Sink.writeLine, Sink.followed, String.append_assoc]

theorem writeRecords_of_unlimited {sink : Sink} (h : sink.capacity = none)
    (records : List Record) :
    writeRecords sink records = (sink.followed (output records), none) := by
  induction records generalizing sink with
  | nil => rw [writeRecords, output_nil, Sink.followed_empty]
  | cons record rest ih =>
    have hrest : writeRecords (sink.followed (compactDocument record ++ "\n")) rest = _ := ih h
    rw [followed_output_cons] at hrest
    rw [writeRecords, writeDocument_of_unlimited h]
    exact hrest

theorem finishSelect_of_unlimited {sink : Sink} (h : sink.capacity = none) (result : PageResult) :
    finishSelect sink result =
      (sink.followed (output result.records), result.fault?.map .client) := by
  cases result with
  | error fault =>
    rw [PageResult.records, output_nil, Sink.followed_empty]
    rfl
  | ok page => exact writeRecords_of_unlimited h page.records

/-- Selecting a page ends as fetching it does. -/
theorem run_page (paging : Paging σ) (kind : Kind) (options : SelectOptions)
    (hselector : paging.selector = options.selector kind) (steps i : Nat) (sink : Sink) :
    run paging.transport steps paging.client (.select kind.name (options.page i)) sink
        (paging.state i) =
      some (.of (finishSelect sink (paging.page i), paging.state (i + 1))) := by
  have hkind : Kind.ofName? (Command.select kind.name (options.page i)).kindName = some kind :=
    Kind.ofName?_name kind
  rw [run, hkind]
  simp only [runKnown, Call.run_map, Paging.page, Paging.state, hselector]
  rfl

/-- The records of a page are those of the response, or there are none. -/
theorem readMany_of_select {transport : Transport σ} {client : Client} (selector : Selector)
    (hlimit : 0 < selector.limit) {state : σ} {page : Page}
    (h : ((client.select selector).run transport state).1 = .ok page) :
    ∃ status body,
      (transport.answer state (client.pageRequest selector)).1 = .ok ⟨status, body⟩ ∧
      (status = 404 ∧ page.records = [] ∨
        Document.readMany selector.kind body = .ok page.records) := by
  rw [Client.select_eq _ hlimit] at h
  obtain ⟨body?, hbody, hread⟩ := (bind_eq_ok ..).mp h
  cases body? with
  | none =>
    obtain ⟨body, houtcome⟩ := Client.foundBody_eq_none hbody
    obtain rfl := (pure_eq_ok ..).mp hread
    exact ⟨404, body, houtcome, .inl ⟨rfl, rfl⟩⟩
  | some body =>
    obtain ⟨status, _, houtcome⟩ := (Client.foundBody_eq_some ..).mp hbody
    simp only [Client.ofDocument, bind_eq_ok, mapError_eq_ok, pure_eq_ok] at hread
    obtain ⟨records, hrecords, _, _, rfl⟩ := hread
    exact ⟨status, body, houtcome, .inr hrecords⟩

/-- The records of a page are of the kind asked for, and they and their targets have ids. -/
theorem stored_of_page (paging : Paging σ) (hlimit : 0 < paging.selector.limit) (i : Nat) :
    ∀ record ∈ (paging.page i).records, record.kind = paging.selector.kind ∧ record.Stored := by
  cases hpage : paging.page i with
  | error fault => exact fun _ h => absurd h List.not_mem_nil
  | ok page =>
    obtain ⟨_, _, _, ⟨_, hnone⟩ | hread⟩ :=
      readMany_of_select (paging.selector.atPage i) hlimit hpage
    · rw [PageResult.records, hnone]
      exact fun _ h => absurd h List.not_mem_nil
    · exact Document.stored_of_readMany hread

/-- The records of a page stand in the order of the response, which is that of their ids. -/
def Follows (page : Page) (outcome : Outcome) : Prop :=
  ∃ status body, outcome = .ok ⟨status, body⟩ ∧
    (status = 404 ∧ page.records = [] ∨ ∃ document, Document.parse body = .ok document ∧
      page.records.map Record.id = document.primary.resources.map Document.Resource.id)

theorem follows_of_page (paging : Paging σ) (hlimit : 0 < paging.selector.limit) {i : Nat}
    {page : Page} (hpage : paging.page i = .ok page) :
    Follows page (paging.transport.answer (paging.state i)
      (paging.client.pageRequest (paging.selector.atPage i))).1 := by
  obtain ⟨status, body, houtcome, hread⟩ :=
    readMany_of_select (paging.selector.atPage i) hlimit hpage
  exact ⟨status, body, houtcome, hread.imp_right Document.ids_of_readMany⟩

/-- A walk that writes what it is handed out. -/
structure Writing (σ : Type) where
  pager : Pager
  sink : Sink
  state : σ

/-- So many records were handed out and written, one after the other. -/
inductive Writes (transport : Transport σ) : Nat → Writing σ → Writing σ → Prop
  | start (writing : Writing σ) : Writes transport 0 writing writing
  | record {steps : Nat} {writing last : Writing σ} {record : Record} {pager : Pager} {sink : Sink}
      {state : σ}
      (next : writing.pager.next.run transport writing.state =
        ((some (.ok record), pager), state))
      (written : writing.sink.writeDocument (compactDocument record) = (sink, none))
      (rest : Writes transport steps ⟨pager, sink, state⟩ last) :
      Writes transport (steps + 1) writing last

namespace Writes

variable {transport : Transport σ} {steps : Nat} {writing last : Writing σ}

theorem trans {further : Nat} {between : Writing σ} (h : Writes transport steps writing between)
    (hrest : Writes transport further between last) :
    Writes transport (steps + further) writing last := by
  induction h with
  | start writing => rwa [Nat.zero_add]
  | record next written _ ih =>
    rw [Nat.add_right_comm]
    exact .record next written (ih hrest)

/-- What was written so far does not matter for what is left to do. -/
theorem writeAll_eq (h : Writes transport steps writing last) (further : Nat) :
    writeAll transport (steps + further) writing.pager writing.sink writing.state =
      writeAll transport further last.pager last.sink last.state := by
  induction h with
  | start writing => rw [Nat.zero_add]
  | record next written _ ih =>
    rw [Nat.add_right_comm, writeAll, next]
    simp only [written]
    exact ih

/-- A walk that has written so many records has not ended before. -/
theorem writeAll_eq_none (h : Writes transport steps writing last) {fewer : Nat}
    (hle : fewer ≤ steps) :
    writeAll transport fewer writing.pager writing.sink writing.state = none := by
  induction h generalizing fewer with
  | start writing =>
    obtain rfl := Nat.le_zero.mp hle
    rfl
  | record next written _ ih =>
    cases fewer with
    | zero => rfl
    | succ fewer =>
      rw [writeAll, next]
      simp only [written]
      exact ih (Nat.le_of_succ_le_succ hle)

end Writes

/-- A pager that is about to fetch the page with a number. -/
structure Awaits (paging : Paging σ) (i : Nat) (pager : Pager) : Prop where
  client_eq : pager.client = paging.client
  page_eq : pager.page = []
  finished_eq : pager.finished = false
  upcoming_eq : pager.upcoming = paging.selector.atPage i

/-- A pager after the records of a page have been handed out. -/
def spent (pager : Pager) (selector : Selector) (page : Page) : Pager :=
  { pager with
    selector
    page := []
    pagesFetched := pager.pagesFetched + 1
    estimatedTotal := page.total
    finished := decide (page.records.length < selector.limit) }

variable {paging : Paging σ} {i : Nat} {pager : Pager} {sink : Sink}

theorem awaits_start (hoffset : paging.selector.offset ≤ Selector.maxOffset) :
    Awaits paging 0 (.start paging.client paging.selector) :=
  ⟨rfl, rfl, rfl, (Selector.atPage_zero hoffset).symm⟩

theorem Awaits.next_eq (h : Awaits paging i pager) :
    pager.next.run paging.transport (paging.state i) =
      (pager.receive (paging.selector.atPage i) (paging.page i), paging.state (i + 1)) := by
  rw [Pager.next, h.page_eq]
  simp only [h.finished_eq, Bool.false_eq_true, if_false]
  rw [Call.run_map, h.client_eq, h.upcoming_eq]
  rfl

/-- After a full page, the pager is about to fetch the next one. -/
theorem Awaits.after_full (h : Awaits paging i pager) {page : Page}
    (hfull : paging.selector.limit ≤ page.records.length) :
    Awaits paging (i + 1) (spent pager (paging.selector.atPage i) page) where
  client_eq := h.client_eq
  page_eq := rfl
  finished_eq := decide_eq_false (Nat.not_lt.mpr hfull)
  upcoming_eq := Selector.nextPage_atPage paging.selector i

/-- The records of the current page are handed out and written. -/
theorem writes_page (transport : Transport σ) (pager : Pager) (sink : Sink)
    {records : List Record} (hpage : pager.page = records) (hsink : sink.capacity = none)
    (state : σ) :
    Writes transport records.length ⟨pager, sink, state⟩
      ⟨{ pager with page := [] }, sink.followed (output records), state⟩ := by
  induction records generalizing pager sink with
  | nil =>
    obtain ⟨client, selector, page, fetched, total, finished⟩ := pager
    obtain rfl : page = [] := hpage
    rw [output_nil, Sink.followed_empty]
    exact .start _
  | cons record rest ih =>
    have hnext : pager.next.run transport state =
        ((some (.ok record), { pager with page := rest }), state) := by
      rw [Pager.next, hpage]
      rfl
    have hrest := ih { pager with page := rest }
      (sink.followed (compactDocument record ++ "\n")) rfl hsink
    rw [followed_output_cons] at hrest
    exact .record hnext (writeDocument_of_unlimited hsink _) hrest

/-- A page with records is fetched and written. -/
theorem Awaits.writes (h : Awaits paging i pager) {page : Page} (hpage : paging.page i = .ok page)
    (hrecords : page.records ≠ []) (hsink : sink.capacity = none) :
    Writes paging.transport page.records.length ⟨pager, sink, paging.state i⟩
      ⟨spent pager (paging.selector.atPage i) page, sink.followed (output page.records),
        paging.state (i + 1)⟩ := by
  obtain ⟨records, total⟩ := page
  obtain ⟨record, rest, rfl⟩ := List.exists_cons_of_ne_nil hrecords
  have hnext := h.next_eq
  rw [hpage, Pager.receive] at hnext
  have hrest := writes_page paging.transport
    { spent pager (paging.selector.atPage i) ⟨record :: rest, total⟩ with page := rest }
    (sink.followed (compactDocument record ++ "\n")) rfl hsink (paging.state (i + 1))
  rw [followed_output_cons] at hrest
  exact .record hnext (writeDocument_of_unlimited hsink _) hrest

/-- Full pages are written one after the other, each with one record at least. -/
theorem writes_full (hlimit : 0 < paging.selector.limit)
    (hoffset : paging.selector.offset ≤ Selector.maxOffset) (n : Nat)
    (hfull : ∀ i < n, paging.Full i) :
    ∃ steps pager, n ≤ steps ∧ Awaits paging n pager ∧
      Writes paging.transport steps
        ⟨.start paging.client paging.selector, .unbounded, paging.start⟩
        ⟨pager, Sink.unbounded.followed (output (paging.records n)), paging.state n⟩ := by
  induction n with
  | zero =>
    refine ⟨0, _, Nat.le_refl 0, awaits_start hoffset, ?_⟩
    exact .start _
  | succ n ih =>
    obtain ⟨steps, pager, hsteps, hawaits, hwrites⟩ := ih fun i hi => hfull i (by omega)
    have hlast := hfull n (Nat.lt_succ_self n)
    rw [Paging.records_succ, output_append, ← Sink.followed_followed]
    rw [Paging.Full] at hlast
    cases hpage : paging.page n with
    | error fault =>
      rw [hpage] at hlast
      exact hlast.elim
    | ok page =>
      rw [hpage] at hlast
      have hlong : paging.selector.limit ≤ page.records.length := hlast
      have hrecords : page.records ≠ [] := List.ne_nil_of_length_pos (by omega)
      exact ⟨steps + page.records.length, _, by omega, hawaits.after_full hlong,
        hwrites.trans (hawaits.writes hpage hrecords rfl)⟩

theorem next_spent {selector : Selector} {page : Page}
    (h : page.records.length < selector.limit) :
    (spent pager selector page).next = .done (none, spent pager selector page) := by
  rw [Pager.next]
  exact if_pos (decide_eq_true h)

/-- A page that is short or fails is written as far as it was received, and ends the walk. -/
theorem Awaits.ends (h : Awaits paging i pager) (hshort : ¬ paging.Full i)
    (hsink : sink.capacity = none) :
    ∃ least, ∀ steps, least ≤ steps →
      writeAll paging.transport steps pager sink (paging.state i) =
        some ⟨sink.followed (output (paging.page i).records),
          (paging.page i).fault?.map .client, paging.state (i + 1)⟩ := by
  have hnext := h.next_eq
  cases hpage : paging.page i with
  | error fault =>
    rw [hpage, Pager.receive] at hnext
    refine ⟨1, fun steps hsteps => ?_⟩
    obtain ⟨further, rfl⟩ := Nat.exists_eq_add_of_le' hsteps
    rw [writeAll, hnext, PageResult.records, output_nil, Sink.followed_empty]
    rfl
  | ok page =>
    obtain ⟨records, total⟩ := page
    cases records with
    | nil =>
      rw [hpage, Pager.receive] at hnext
      refine ⟨1, fun steps hsteps => ?_⟩
      obtain ⟨further, rfl⟩ := Nat.exists_eq_add_of_le' hsteps
      rw [writeAll, hnext, PageResult.records, output_nil, Sink.followed_empty]
      rfl
    | cons record rest =>
      have hwrites := h.writes hpage (List.cons_ne_nil record rest) hsink
      have hfinished : (record :: rest).length < (paging.selector.atPage i).limit := by
        rw [Paging.Full, hpage] at hshort
        exact Nat.not_le.mp hshort
      refine ⟨(record :: rest).length + 1, fun steps hsteps => ?_⟩
      obtain ⟨further, rfl⟩ := Nat.exists_eq_add_of_le hsteps
      rw [Nat.add_assoc, hwrites.writeAll_eq, Nat.add_comm 1 further, writeAll,
        next_spent hfinished]
      rfl

/-- A walk over all pages writes the full ones and the first that is not, and ends with it. -/
theorem writeAll_of_short (hlimit : 0 < paging.selector.limit)
    (hoffset : paging.selector.offset ≤ Selector.maxOffset) {n : Nat}
    (hfull : ∀ i < n, paging.Full i) (hshort : ¬ paging.Full n) :
    ∃ least, ∀ steps, least ≤ steps →
      writeAll paging.transport steps (.start paging.client paging.selector) .unbounded
          paging.start =
        some ⟨⟨output (paging.records (n + 1)), none⟩, (paging.page n).fault?.map .client,
          paging.state (n + 1)⟩ := by
  obtain ⟨before, pager, _, hawaits, hwrites⟩ := writes_full hlimit hoffset n hfull
  have hsink : (Sink.unbounded.followed (output (paging.records n))).capacity = none := rfl
  obtain ⟨least, hends⟩ := hawaits.ends hshort hsink
  refine ⟨before + least, fun steps hsteps => ?_⟩
  obtain ⟨further, rfl⟩ := Nat.exists_eq_add_of_le hsteps
  rw [Nat.add_assoc, hwrites.writeAll_eq, hends _ (Nat.le_add_right least further),
    Sink.followed_followed, ← output_append, ← Paging.records_succ, Sink.unbounded_followed]

/-- Selecting all pages is a walk from the first one. -/
theorem run_all (paging : Paging σ) {kind : Kind} {options : SelectOptions}
    (hselector : paging.selector = options.selector kind) (steps : Nat) :
    run paging.transport steps paging.client (.select kind.name { options with all := true })
        .unbounded paging.start =
      writeAll paging.transport steps (.start paging.client paging.selector) .unbounded
        paging.start := by
  have hkind : Kind.ofName? (Command.select kind.name { options with all := true }).kindName =
      some kind := Kind.ofName?_name kind
  rw [run, hkind, hselector]
  rfl

theorem join_output (paging : Paging σ) (n : Nat) :
    String.join ((List.range n).map fun i => output (paging.page i).records) =
      output (paging.records n) := by
  induction n with
  | zero => rfl
  | succ n ih =>
    rw [List.range_succ, List.map_append, String.join_append, ih, Paging.records_succ,
      output_append, List.map_singleton, String.join_cons, String.join_nil, String.append_empty]

/-- Selecting all pages writes, in the order of the pages, what selecting them one by one writes,
each on the answers that the one before has left: up to the first page that is short or fails, and
it ends as selecting this page alone does. With full pages only, it writes one after the other and
does not end. What is written for a page is a line for each of its records, in the order of the
response, which reads back as the record with stubs; it is nothing if fetching the page fails. -/
theorem select_all (transport : Transport σ) (client : Client) (kind : Kind)
    (options : SelectOptions) (hlimit : 0 < options.limit)
    (hoffset : options.offset ≤ Selector.maxOffset) (start : σ) :
    let paging : Paging σ := ⟨transport, client, options.selector kind, start⟩
    ∃ texts : Nat → String,
      (∀ i steps, run transport steps client (.select kind.name (options.page i)) .unbounded
          (paging.state i) =
        some ⟨⟨texts i, none⟩, (paging.page i).fault?.map .client, paging.state (i + 1)⟩) ∧
      (∀ i, Lists kind (paging.page i).records (texts i)) ∧
      (∀ i page, paging.page i = .ok page → Follows page (transport.answer (paging.state i)
        (client.pageRequest (paging.selector.atPage i))).1) ∧
      (∀ i fault, paging.page i = .error fault → ∀ sink steps,
        run transport steps client (.select kind.name (options.page i)) sink (paging.state i) =
          some ⟨sink, some (.client fault), paging.state (i + 1)⟩) ∧
      (∀ n, (∀ i < n, paging.Full i) → ¬ paging.Full n →
        let text := String.join ((List.range (n + 1)).map texts)
        Lists kind (paging.records (n + 1)) text ∧ ∃ least, ∀ steps, least ≤ steps →
          run transport steps client (.select kind.name { options with all := true }) .unbounded
              start =
            some ⟨⟨text, none⟩, (paging.page n).fault?.map .client, paging.state (n + 1)⟩) ∧
      (∀ n, (∀ i < n, paging.Full i) → ∃ steps pager, n ≤ steps ∧
        Writes transport steps ⟨.start client paging.selector, .unbounded, start⟩
          ⟨pager, ⟨String.join ((List.range n).map texts), none⟩, paging.state n⟩) ∧
      ((∀ i, paging.Full i) → ∀ steps,
        run transport steps client (.select kind.name { options with all := true }) .unbounded
          start = none) := by
  intro paging
  have hpositive : 0 < paging.selector.limit := hlimit
  refine ⟨fun i => output (paging.page i).records, ?_,
    fun i => lists_output (stored_of_page paging hpositive i),
    fun i page hpage => follows_of_page paging hpositive hpage, ?_, ?_, ?_, ?_⟩
  · intro i steps
    have hrun := run_page paging kind options rfl steps i .unbounded
    rw [finishSelect_of_unlimited rfl, Sink.unbounded_followed] at hrun
    exact hrun
  · intro i fault hfault sink steps
    have hrun := run_page paging kind options rfl steps i sink
    rw [hfault] at hrun
    exact hrun
  · intro n hfull hshort
    obtain ⟨least, hends⟩ := writeAll_of_short hpositive hoffset hfull hshort
    rw [join_output]
    refine ⟨lists_output fun record hrecord => ?_, least, fun steps hsteps =>
      (run_all paging rfl steps).trans (hends steps hsteps)⟩
    obtain ⟨i, _, hi⟩ := List.mem_flatMap.mp hrecord
    exact stored_of_page paging hpositive i record hi
  · intro n hfull
    obtain ⟨steps, pager, hsteps, _, hwrites⟩ := writes_full hpositive hoffset n hfull
    rw [join_output, ← Sink.unbounded_followed]
    exact ⟨steps, pager, hsteps, hwrites⟩
  · intro hfull steps
    obtain ⟨more, _, hsteps, _, hwrites⟩ :=
      writes_full hpositive hoffset steps fun i _ => hfull i
    exact (run_all paging rfl steps).trans (hwrites.writeAll_eq_none hsteps)

/-- A grant whose number has a line break, after which the connection is dropped. -/
def brokenLine : Transport.Script :=
  ⟨[⟨200, Json.Value.toBytes (.object [("data", .array [.object [
    ("attributes", .object [("awardNumber", .string "a\nb")]), ("id", .string "1"),
    ("type", .string "grant")]])])⟩], []⟩

def oneEach : SelectOptions := ⟨none, none, [], 0, 1, true⟩

theorem select_all_brokenLine : 0 < oneEach.limit ∧ oneEach.offset ≤ Selector.maxOffset ∧
    ∃ text record fault least, record.id = some "1" ∧ Lists .grant [record] text ∧
      ∀ steps, least ≤ steps →
        (run Transport.scripted steps Client.loopback (.select "grant" oneEach) .unbounded
          brokenLine).map (fun finish => (finish.sink.text, finish.fault)) =
            some (text, some (.client fault)) := by
  have hlimit : 0 < oneEach.limit := by decide
  have hoffset : oneEach.offset ≤ Selector.maxOffset := by decide
  refine ⟨hlimit, hoffset, ?_⟩
  obtain ⟨texts, _, _, _, _, hends, _⟩ :=
    select_all Transport.scripted Client.loopback .grant oneEach hlimit hoffset brokenLine
  let paging : Paging Transport.Script :=
    ⟨Transport.scripted, Client.loopback, oneEach.selector .grant, brokenLine⟩
  have hids : (paging.records 2).map Record.id = [some "1"] := by decide +kernel
  have hfirst : (paging.page 0).records.length = 1 := by decide +kernel
  have hsecond : (paging.page 1).fault?.isSome = true := by decide +kernel
  have hfull : ∀ i < 1, paging.Full i := by
    intro i hi
    obtain rfl : i = 0 := Nat.lt_one_iff.mp hi
    rw [Paging.Full]
    cases hpage : paging.page 0 with
    | error fault => simp [hpage, PageResult.records] at hfirst
    | ok page =>
      rw [hpage] at hfirst
      exact hfirst.ge
  obtain ⟨fault, hfault⟩ := Option.isSome_iff_exists.mp hsecond
  have hshort : ¬ paging.Full 1 := by
    rw [Paging.Full]
    cases hpage : paging.page 1 with
    | error fault => exact id
    | ok page => simp [hpage, PageResult.fault?] at hfault
  obtain ⟨record, hrecords, hid⟩ := List.map_eq_singleton_iff.mp hids
  obtain ⟨hlists, least, hrun⟩ := hends 1 hfull hshort
  rw [hrecords] at hlists
  refine ⟨_, record, fault, least, hid, hlists, fun steps hsteps => ?_⟩
  have hfinish := hrun steps hsteps
  rw [hfault] at hfinish
  exact congrArg (Option.map fun finish => (finish.sink.text, finish.fault)) hfinish

end Command

end ResearchRecords
