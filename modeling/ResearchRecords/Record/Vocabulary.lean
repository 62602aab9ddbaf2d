import ResearchRecords.Json.Value

/-!
Controlled vocabularies. Some attributes take one of a few terms; a term has a spelling in documents
and a label of its own.
-/
namespace ResearchRecords

inductive Vocabulary
  | awardStatus
  | depositStatus
  | copyStatus
  | integrationType
  | fileRole
  | submissionStatus
  | aggregatedDepositStatus
  | source
  | eventType
  | performerRole
  | pmcParticipation
  | userRole
  deriving DecidableEq, Repr

namespace Vocabulary

def all : List Vocabulary :=
  [awardStatus, depositStatus, copyStatus, integrationType, fileRole, submissionStatus,
    aggregatedDepositStatus, source, eventType, performerRole, pmcParticipation, userRole]

def title : Vocabulary → String
  | awardStatus => "AwardStatus"
  | depositStatus => "DepositStatus"
  | copyStatus => "CopyStatus"
  | integrationType => "IntegrationType"
  | fileRole => "FileRole"
  | submissionStatus => "SubmissionStatus"
  | aggregatedDepositStatus => "AggregatedDepositStatus"
  | source => "Source"
  | eventType => "EventType"
  | performerRole => "PerformerRole"
  | pmcParticipation => "PmcParticipation"
  | userRole => "UserRole"

def ofTitle? (title : String) : Option Vocabulary := all.find? (·.title == title)

/-- The spellings of the terms. -/
def spellings : Vocabulary → List String
  | awardStatus => ["active", "pre_award", "terminated"]
  | depositStatus => ["submitted", "rejected", "failed", "accepted"]
  | copyStatus => ["complete", "in-progress", "stalled", "accepted", "rejected"]
  | integrationType => ["full", "one-way", "web-link"]
  | fileRole => ["supplemental", "manuscript", "figure", "table"]
  | submissionStatus =>
    ["draft", "manuscript-required", "approval-requested", "changes-requested", "cancelled",
      "submitted", "needs-attention", "complete"]
  | aggregatedDepositStatus => ["not-started", "in-progress", "failed", "accepted", "rejected"]
  | source => ["pass", "other"]
  | eventType =>
    ["approval-requested-newuser", "approval-requested", "changes-requested", "cancelled",
      "submitted"]
  | performerRole => ["preparer", "submitter"]
  | pmcParticipation => ["A", "B"]
  | userRole => ["admin", "submitter"]

def isJoint (c : Char) : Bool := c == '-' || c == '_'

/-- The words of a spelling, without the joints between them. -/
def words (spelling : List Char) : List (List Char) := spelling.splitOnP isJoint

def capitalize : List Char → List Char
  | [] => []
  | c :: rest => c.toUpper :: rest

/-- A label is the words of the spelling, each with a capital. -/
def labelOf (spelling : String) : String :=
  String.ofList ((words spelling.toList).flatMap capitalize)

end Vocabulary

/-- A term of a vocabulary, by its place in it. -/
abbrev Term (v : Vocabulary) := Fin v.spellings.length

namespace Term

variable {v : Vocabulary}

def spelling (t : Term v) : String := v.spellings[t]

def label (t : Term v) : String := Vocabulary.labelOf t.spelling

def all (v : Vocabulary) : List (Term v) := List.finRange v.spellings.length

def ofSpelling? (v : Vocabulary) (s : String) : Option (Term v) :=
  (all v).find? (·.spelling == s)

def ofSpelling (v : Vocabulary) (s : String) : Except Json.Fault (Term v) :=
  match ofSpelling? v s with
  | some t => .ok t
  | none => .error (.unknownVariant s v.spellings)

/-- A term is its spelling, or an object that maps the spelling to null. -/
def ofValue (v : Vocabulary) : Json.Value → Except Json.Fault (Term v)
  | .string s => ofSpelling v s
  | .object [(s, value)] => do
    let t ← ofSpelling v s
    if value.isNull then return t else throw (value.mistyped "unit")
  | .object _ => .error (.invalidValue .object "map with a single key")
  | value => .error (value.mistyped "string or map")

def value (t : Term v) : Json.Value := .string t.spelling

theorem ofSpelling?_spelling (t : Term v) : ofSpelling? v t.spelling = some t := by
  cases v <;> revert t <;> decide

end Term

end ResearchRecords
