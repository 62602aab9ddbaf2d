import ResearchRecords.Record.Kind
import ResearchRecords.Text.Quoted

/-!
Selections: which page of which records to fetch, how they are filtered and sorted, and which of
their relationships come with full records. Offsets and limits are numbers of 64 bits.
-/
namespace ResearchRecords

structure Selector where
  kind : Kind
  offset : Nat
  limit : Nat
  filter : Option String
  sorting : Option String
  including : List String
  deriving DecidableEq, Repr

namespace Selector

def defaultLimit : Nat := 500

def maxOffset : Nat := 0xFFFFFFFFFFFFFFFF

def forKind (kind : Kind) : Selector := ⟨kind, 0, defaultLimit, none, none, []⟩

def isValid (selector : Selector) : Bool := 0 < selector.limit

/-- The selection of the next page. The offset stays at its greatest value once it is there. -/
def nextPage (selector : Selector) : Selector :=
  { selector with offset := min (selector.offset + selector.limit) maxOffset }

def optionalPair (name : String) : Option String → List (String × Option String)
  | none => []
  | some value => [(name, some value)]

/-- The included names joined by commas, if there are any. -/
def includePairs (names : List String) : List (String × Option String) :=
  if names.isEmpty then [] else [("include", some (",".intercalate names))]

/-- The query of a request. The wish for a total has no value. -/
def queryPairs (selector : Selector) : List (String × Option String) :=
  includePairs selector.including ++ optionalPair "filter" selector.filter ++
    optionalPair "sort" selector.sorting ++
    [("page[offset]", some (toString selector.offset)),
      ("page[limit]", some (toString selector.limit)), ("page[totals]", none)]

/-- A line that shows all parts of the selection. -/
def summary (selector : Selector) : String :=
  "PassClientSelector \x7b type: " ++ selector.kind.title ++
    ", offset: " ++ toString selector.offset ++ ", limit: " ++ toString selector.limit ++
    ", filter: " ++ Text.Quoted.encodeOption selector.filter ++
    ", sorting: " ++ Text.Quoted.encodeOption selector.sorting ++
    ", include: " ++ Text.Quoted.encodeList selector.including ++ " \x7d"

end Selector

end ResearchRecords
