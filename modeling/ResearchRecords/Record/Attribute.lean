import ResearchRecords.Record.Kind
import ResearchRecords.Record.Vocabulary
import ResearchRecords.Timestamp.Text

/-!
Attributes of records. The schema of a kind lists the names and types of its attributes in the order
of their names; the attributes of a record are one value for each. A missing or null attribute is
unset, and an unset list is empty.
-/
namespace ResearchRecords

inductive AttributeType
  | text
  | flag
  | time
  | term (v : Vocabulary)
  | texts
  | terms (v : Vocabulary)
  deriving DecidableEq, Repr

structure Attribute where
  name : String
  type : AttributeType
  deriving DecidableEq, Repr

namespace AttributeType

def Value : AttributeType → Type
  | text => Option String
  | flag => Option Bool
  | time => Option Timestamp
  | term v => Option (Term v)
  | texts => List String
  | terms v => List (Term v)

instance : (type : AttributeType) → DecidableEq type.Value
  | text => inferInstanceAs (DecidableEq (Option String))
  | flag => inferInstanceAs (DecidableEq (Option Bool))
  | time => inferInstanceAs (DecidableEq (Option Timestamp))
  | term v => inferInstanceAs (DecidableEq (Option (Term v)))
  | texts => inferInstanceAs (DecidableEq (List String))
  | terms v => inferInstanceAs (DecidableEq (List (Term v)))

def unset : (type : AttributeType) → type.Value
  | text => (none : Option String)
  | flag => (none : Option Bool)
  | time => (none : Option Timestamp)
  | term v => (none : Option (Term v))
  | texts => ([] : List String)
  | terms v => ([] : List (Term v))

def readText : Json.Value → Except Json.Fault String
  | .string s => .ok s
  | value => .error (value.mistyped "a string")

def readFlag : Json.Value → Except Json.Fault Bool
  | .bool b => .ok b
  | value => .error (value.mistyped "a boolean")

def readTime : Json.Value → Except Json.Fault Timestamp
  | .string s => (Timestamp.parse s).mapError fun fault => .custom fault.message
  | value => .error (value.mistyped "an RFC 3339 formatted date and time string")

def readOptional (read : Json.Value → Except Json.Fault α) :
    Json.Value → Except Json.Fault (Option α)
  | .null => .ok none
  | value => some <$> read value

def readList (read : Json.Value → Except Json.Fault α) : Json.Value → Except Json.Fault (List α)
  | .null => .ok []
  | .array items => items.mapM read
  | value => .error (value.mistyped "a sequence")

def read : (type : AttributeType) → Json.Value → Except Json.Fault type.Value
  | text => readOptional readText
  | flag => readOptional readFlag
  | time => readOptional readTime
  | term v => readOptional (Term.ofValue v)
  | texts => readList readText
  | terms v => readList (Term.ofValue v)

def write : (type : AttributeType) → type.Value → Json.Value
  | text => fun s : Option String => .ofOption .string s
  | flag => fun b : Option Bool => .ofOption .bool b
  | time => fun t : Option Timestamp => .ofOption (fun t => .string t.text) t
  | term _ => fun t : Option (Term _) => .ofOption Term.value t
  | texts => fun s : List String => .array (s.map .string)
  | terms _ => fun t : List (Term _) => .array (t.map Term.value)

end AttributeType

/-- One value for each attribute of a schema. -/
def Row : List Attribute → Type
  | [] => Unit
  | a :: rest => a.type.Value × Row rest

namespace Row

def decEq : (schema : List Attribute) → DecidableEq (Row schema)
  | [] => inferInstanceAs (DecidableEq Unit)
  | a :: rest =>
    have : DecidableEq (Row rest) := decEq rest
    inferInstanceAs (DecidableEq (a.type.Value × Row rest))

instance (schema : List Attribute) : DecidableEq (Row schema) := decEq schema

def blank : (schema : List Attribute) → Row schema
  | [] => ()
  | a :: rest => (a.type.unset, blank rest)

def readAttribute (members : Json.Members Json.Value) (a : Attribute) :
    Except Json.Fault a.type.Value :=
  match members.get? a.name with
  | none => .ok a.type.unset
  | some value => a.type.read value

/-- Reads the attributes from the members of an object; members of other names do not count. -/
def read (members : Json.Members Json.Value) :
    (schema : List Attribute) → Except Json.Fault (Row schema)
  | [] => .ok ()
  | a :: rest => do
    let value ← readAttribute members a
    let row ← read members rest
    return (value, row)

def write : (schema : List Attribute) → Row schema → Json.Members Json.Value
  | [], _ => []
  | a :: rest, row => (a.name, a.type.write row.1) :: write rest row.2

end Row

namespace Kind

open AttributeType

/-- The attributes of a kind, by name. -/
def schema : Kind → List Attribute
  | deposit => [⟨"depositStatus", .term .depositStatus⟩, ⟨"depositStatusRef", text⟩]
  | file =>
    [⟨"description", text⟩, ⟨"fileRole", .term .fileRole⟩, ⟨"mimeType", text⟩, ⟨"name", text⟩,
      ⟨"uri", text⟩]
  | funder => [⟨"localKey", text⟩, ⟨"name", text⟩, ⟨"url", text⟩]
  | grant =>
    [⟨"awardDate", time⟩, ⟨"awardNumber", text⟩, ⟨"awardStatus", .term .awardStatus⟩,
      ⟨"endDate", time⟩, ⟨"localKey", text⟩, ⟨"projectName", text⟩, ⟨"startDate", time⟩]
  | journal =>
    [⟨"issns", texts⟩, ⟨"journalName", text⟩, ⟨"nlmta", text⟩,
      ⟨"pmcParticipation", .term .pmcParticipation⟩]
  | policy =>
    [⟨"description", text⟩, ⟨"institution", text⟩, ⟨"policyUrl", text⟩, ⟨"title", text⟩]
  | publication =>
    [⟨"doi", text⟩, ⟨"issue", text⟩, ⟨"pmid", text⟩, ⟨"publicationAbstract", text⟩,
      ⟨"title", text⟩, ⟨"volume", text⟩]
  | repository =>
    [⟨"agreementText", text⟩, ⟨"description", text⟩, ⟨"formSchema", text⟩,
      ⟨"integrationType", .term .integrationType⟩, ⟨"name", text⟩, ⟨"repositoryKey", text⟩,
      ⟨"schemas", texts⟩, ⟨"url", text⟩]
  | repositoryCopy =>
    [⟨"accessUrl", text⟩, ⟨"copyStatus", .term .copyStatus⟩, ⟨"externalIds", texts⟩]
  | submission =>
    [⟨"aggregatedDepositStatus", .term .aggregatedDepositStatus⟩, ⟨"metadata", text⟩,
      ⟨"source", .term .source⟩, ⟨"submissionStatus", .term .submissionStatus⟩,
      ⟨"submitted", flag⟩, ⟨"submittedDate", time⟩, ⟨"submitterEmail", text⟩,
      ⟨"submitterName", text⟩]
  | submissionEvent =>
    [⟨"comment", text⟩, ⟨"eventType", .term .eventType⟩, ⟨"link", text⟩,
      ⟨"performedDate", time⟩, ⟨"performerRole", .term .performerRole⟩]
  | user =>
    [⟨"affiliation", texts⟩, ⟨"displayName", text⟩, ⟨"email", text⟩, ⟨"firstName", text⟩,
      ⟨"lastName", text⟩, ⟨"locatorIds", texts⟩, ⟨"middleName", text⟩, ⟨"orcidId", text⟩,
      ⟨"roles", .terms .userRole⟩, ⟨"username", text⟩]

theorem schema_sorted (kind : Kind) : (kind.schema.map Attribute.name).Pairwise (· < ·) := by
  cases kind <;> decide

end Kind

abbrev Attributes (kind : Kind) := Row kind.schema

end ResearchRecords
