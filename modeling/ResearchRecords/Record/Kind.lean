/-!
The kinds of research records. A kind's name is its type in documents and the last segment of the
address of its collection; names tell kinds apart.
-/
namespace ResearchRecords

inductive Kind
  | deposit
  | file
  | funder
  | grant
  | journal
  | policy
  | publication
  | repository
  | repositoryCopy
  | submission
  | submissionEvent
  | user
  deriving DecidableEq, Repr

namespace Kind

def all : List Kind :=
  [deposit, file, funder, grant, journal, policy, publication, repository, repositoryCopy,
    submission, submissionEvent, user]

def name : Kind → String
  | deposit => "deposit"
  | file => "file"
  | funder => "funder"
  | grant => "grant"
  | journal => "journal"
  | policy => "policy"
  | publication => "publication"
  | repository => "repository"
  | repositoryCopy => "repositoryCopy"
  | submission => "submission"
  | submissionEvent => "submissionEvent"
  | user => "user"

/-- The name as a title. -/
def title : Kind → String
  | deposit => "Deposit"
  | file => "File"
  | funder => "Funder"
  | grant => "Grant"
  | journal => "Journal"
  | policy => "Policy"
  | publication => "Publication"
  | repository => "Repository"
  | repositoryCopy => "RepositoryCopy"
  | submission => "Submission"
  | submissionEvent => "SubmissionEvent"
  | user => "User"

def ofName? (name : String) : Option Kind := all.find? (·.name == name)

theorem ofName?_name (kind : Kind) : ofName? kind.name = some kind := by
  cases kind <;> decide

theorem name_injective {a b : Kind} (h : a.name = b.name) : a = b := by
  have := ofName?_name a
  rw [h, ofName?_name] at this
  exact (Option.some.inj this).symm

end Kind

/-- The text for a name that is no kind. -/
def unknownKindMessage (name : String) : String := "unknown PASS type '" ++ name ++ "'"

end ResearchRecords
