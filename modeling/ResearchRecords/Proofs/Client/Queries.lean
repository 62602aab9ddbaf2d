import ResearchRecords.Proofs.Client.Addressing
import ResearchRecords.Proofs.Url.Marks

/-!
What a repository reads in the query of a request. The address of a collection or a record keeps
nothing of the query and the fragment of the base, and the pairs added to it are read back one by
one, whatever marks the texts of a selection hold. So the query says what was selected and nothing
else.
-/
namespace ResearchRecords

open Results
open Text (Form.decodePairs)
open Url (pathText)

namespace Client

variable {client : Client}

/-- The base of a client was read from a text. -/
theorem unmarked_of_ofConfig {config : Config} (h : ofConfig config = .ok client) :
    client.base.Unmarked := by
  obtain ⟨url, hurl, rfl⟩ := (ofConfig_eq_ok_iff ..).mp h
  exact (Url.unmarked_of_parse (Config.parse_of_url hurl)).closed

theorem isUnmarked_of_mem_name (kind : Kind) :
    ∀ c ∈ kind.name.toList, Url.isUnmarked c = true := by
  have hall : kind.name.toList.all Url.isUnmarked = true := by cases kind <;> decide
  exact List.all_eq_true.mp hall

theorem unmarked_collectionUrl (h : client.base.Unmarked) (kind : Kind) :
    (client.collectionUrl kind).Unmarked := by
  refine h.sibling ?_
  intro segment hsegment
  simp only [List.mem_cons, List.not_mem_nil, or_false] at hsegment
  rcases hsegment with rfl | rfl
  · exact List.all_eq_true.mp (by decide)
  · exact isUnmarked_of_mem_name kind

end Client

theorem Selector.optionalPair_eq (name : String) (value? : Option String) :
    optionalPair name value? = (value?.map fun value => (name, some value)).toList := by
  cases value? <;> rfl

theorem Selector.includePairs_eq (names : List String) : includePairs names =
    if names = [] then [] else [("include", some (",".intercalate names))] := by
  cases names <;> rfl

theorem Selector.name_of_mem_optionalPair {name : String} {value? : Option String}
    {pair : String × Option String} (h : pair ∈ optionalPair name value?) : pair.1 = name := by
  cases value? with
  | none => simp [optionalPair] at h
  | some value =>
    obtain rfl := List.mem_singleton.mp h
    rfl

theorem Selector.name_of_mem_includePairs {names : List String} {pair : String × Option String}
    (h : pair ∈ includePairs names) : pair.1 = "include" := by
  cases names with
  | nil => simp [includePairs] at h
  | cons name names =>
    obtain rfl := List.mem_singleton.mp h
    rfl

theorem Selector.name_ne_empty_of_mem_queryPairs {selector : Selector}
    {pair : String × Option String} (h : pair ∈ selector.queryPairs) : pair.1 ≠ "" := by
  simp only [queryPairs, List.mem_append, List.mem_cons, List.not_mem_nil, or_false] at h
  rcases h with ((hinclude | hfilter) | hsorting) | rfl | rfl | rfl
  · rw [name_of_mem_includePairs hinclude]
    decide
  · rw [name_of_mem_optionalPair hfilter]
    decide
  · rw [name_of_mem_optionalPair hsorting]
    decide
  · show "page[offset]" ≠ ""
    decide
  · show "page[limit]" ≠ ""
    decide
  · decide

/-- A request for the page of a selection: it goes to the collection below the base of a client, and
its query tells the selection in this order and nothing else. -/
structure Request.AsksFor (request : Request) (client : Client) (selector : Selector) : Prop where
  method_eq : request.method = .get
  scheme_eq : request.url.scheme = client.base.scheme
  authority_eq : request.url.authority = client.base.authority
  path_eq : pathText request.url.path =
    pathText client.base.path ++ "data/" ++ selector.kind.name
  pairs_eq : (Url.queryText request.url.text).map Form.decodePairs = some (
    (if selector.including = [] then []
      else [("include", some (",".intercalate selector.including))]) ++
    (selector.filter.map fun filter => ("filter", some filter)).toList ++
    (selector.sorting.map fun sorting => ("sort", some sorting)).toList ++
    [("page[offset]", some (toString selector.offset)),
      ("page[limit]", some (toString selector.limit)), ("page[totals]", none)])

namespace Client

variable {client : Client}

/-- The pairs that are added to the address of a collection are those that are read back. -/
theorem asksFor_pageRequest {config : Config} (hclient : ofConfig config = .ok client)
    (selector : Selector) : (client.pageRequest selector).AsksFor client selector where
  method_eq := rfl
  scheme_eq := (Url.withPairs_parts ..).1
  authority_eq := (Url.withPairs_parts ..).2.1
  path_eq := by
    rw [← (isClosed_of_ofConfig hclient).pathText_collectionUrl]
    exact congrArg pathText (Url.withPairs_path ..)
  pairs_eq := by
    have hsome : selector.queryPairs ≠ [] := by simp [Selector.queryPairs]
    have hnames : ∀ pair ∈ selector.queryPairs, pair.1 ≠ "" := fun _ hpair =>
      Selector.name_ne_empty_of_mem_queryPairs hpair
    have hcollection := unmarked_collectionUrl (unmarked_of_ofConfig hclient) selector.kind
    rw [pageRequest, request, hcollection.queryText_withPairs rfl hnames, if_neg hsome,
      Selector.queryPairs, Selector.includePairs_eq, Selector.optionalPair_eq,
      Selector.optionalPair_eq]

/-- The query of a request tells what was selected, or which targets shall come in full, in this
order and nothing else. -/
theorem query_tells_selection {config : Config} (hclient : ofConfig config = .ok client) :
    (∀ selector : Selector, 0 < selector.limit → ∃ request next,
      client.select selector = .send request next ∧
        (Url.queryText request.url.text).map Form.decodePairs = some (
          (if selector.including = [] then []
            else [("include", some (",".intercalate selector.including))]) ++
          (selector.filter.map fun filter => ("filter", some filter)).toList ++
          (selector.sorting.map fun sorting => ("sort", some sorting)).toList ++
          [("page[offset]", some (toString selector.offset)),
            ("page[limit]", some (toString selector.limit)), ("page[totals]", none)])) ∧
      ∀ kind id including, id ≠ "" → ∃ request next,
        client.get kind id including = .send request next ∧
          (Url.queryText request.url.text).map Form.decodePairs =
            if including = [] then none
            else some [("include", some (",".intercalate including))] := by
  constructor
  · intro selector hlimit
    exact ⟨_, _, client.select_eq hlimit, (asksFor_pageRequest hclient selector).pairs_eq⟩
  · intro kind id including hne
    have hnames : ∀ pair ∈ Selector.includePairs including, pair.1 ≠ "" := by
      intro pair hpair
      rw [Selector.name_of_mem_includePairs hpair]
      decide
    have hcollection := unmarked_collectionUrl (unmarked_of_ofConfig hclient) kind
    have hquery := (hcollection.push id).queryText_withPairs rfl hnames
    have hget : ∃ next, client.get kind id including = .send (client.request .get
        (((client.collectionUrl kind).push id).withPairs (Selector.includePairs including)) none)
          next := by
      rw [get, getRequest_eq client kind hne]
      exact ⟨_, rfl⟩
    obtain ⟨next, hget⟩ := hget
    refine ⟨_, next, hget, ?_⟩
    rw [request, hquery, Selector.includePairs_eq]
    by_cases hnone : including = []
    · simp [hnone]
    · simp [hnone]

/-- Settings with an address that has a query and a fragment of its own. -/
def queriedConfig : Config := ⟨"http://127.0.0.1/api?page[limit]=7&x#top", none, none, none⟩

def queried : Client :=
  ⟨⟨"http", "127.0.0.1", ["api", ""], some "page[limit]=7&x", some "top"⟩, none⟩

/-- A selection of texts that hold the marks of queries and addresses. -/
def markedSelector : Selector :=
  ⟨.grant, 3, 2, some "name=='a&b=c+d#?%41 é'", some "-title&page[limit]=9", ["pi", "co Pis"]⟩

theorem query_tells_selection_marked :
    ofConfig queriedConfig = .ok queried ∧ 0 < markedSelector.limit ∧
      (∃ request next, queried.select markedSelector = .send request next ∧
        (Url.queryText request.url.text).map Form.decodePairs =
          some [("include", some "pi,co Pis"), ("filter", some "name=='a&b=c+d#?%41 é'"),
            ("sort", some "-title&page[limit]=9"), ("page[offset]", some "3"),
            ("page[limit]", some "2"), ("page[totals]", none)]) ∧
      "1" ≠ "" ∧ ∃ request next, queried.get .grant "1" [] = .send request next ∧
        (Url.queryText request.url.text).map Form.decodePairs = none := by
  have hclient : ofConfig queriedConfig = .ok queried := by decide +kernel
  have hlimit : 0 < markedSelector.limit := by decide
  have hne : "1" ≠ "" := by decide
  obtain ⟨hselect, hget⟩ := query_tells_selection hclient
  exact ⟨hclient, hlimit, hselect markedSelector hlimit, hne, hget .grant "1" [] hne⟩

end Client

end ResearchRecords
