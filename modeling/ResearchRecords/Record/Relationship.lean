import ResearchRecords.Record.Kind
import ResearchRecords.Text.Quoted

/-!
Relationships between kinds of records. Each belongs to one kind and points to one target of a fixed
kind, or to a list of them. No chain of relationships leads back to a kind: the rank of a kind falls
along every one of them, so a chain has at most five.
-/
namespace ResearchRecords

inductive Cardinality
  | toOne
  | toMany
  deriving DecidableEq, Repr

def Cardinality.title : Cardinality → String
  | .toOne => "ToOne"
  | .toMany => "ToMany"

inductive Relationship
  | depositSubmission
  | depositRepository
  | depositRepositoryCopy
  | fileSubmission
  | funderPolicy
  | grantPrimaryFunder
  | grantDirectFunder
  | grantPi
  | grantCoPis
  | policyRepositories
  | publicationJournal
  | copyPublication
  | copyRepository
  | submissionPublication
  | submissionSubmitter
  | submissionRepositories
  | submissionPreparers
  | submissionGrants
  | submissionEffectivePolicies
  | eventPerformedBy
  | eventSubmission
  deriving DecidableEq, Repr

namespace Relationship

/-- The kind that has the relationship. -/
def source : Relationship → Kind
  | depositSubmission => .deposit
  | depositRepository => .deposit
  | depositRepositoryCopy => .deposit
  | fileSubmission => .file
  | funderPolicy => .funder
  | grantPrimaryFunder => .grant
  | grantDirectFunder => .grant
  | grantPi => .grant
  | grantCoPis => .grant
  | policyRepositories => .policy
  | publicationJournal => .publication
  | copyPublication => .repositoryCopy
  | copyRepository => .repositoryCopy
  | submissionPublication => .submission
  | submissionSubmitter => .submission
  | submissionRepositories => .submission
  | submissionPreparers => .submission
  | submissionGrants => .submission
  | submissionEffectivePolicies => .submission
  | eventPerformedBy => .submissionEvent
  | eventSubmission => .submissionEvent

def name : Relationship → String
  | depositSubmission => "submission"
  | depositRepository => "repository"
  | depositRepositoryCopy => "repositoryCopy"
  | fileSubmission => "submission"
  | funderPolicy => "policy"
  | grantPrimaryFunder => "primaryFunder"
  | grantDirectFunder => "directFunder"
  | grantPi => "pi"
  | grantCoPis => "coPis"
  | policyRepositories => "repositories"
  | publicationJournal => "journal"
  | copyPublication => "publication"
  | copyRepository => "repository"
  | submissionPublication => "publication"
  | submissionSubmitter => "submitter"
  | submissionRepositories => "repositories"
  | submissionPreparers => "preparers"
  | submissionGrants => "grants"
  | submissionEffectivePolicies => "effectivePolicies"
  | eventPerformedBy => "performedBy"
  | eventSubmission => "submission"

def target : Relationship → Kind
  | depositSubmission => .submission
  | depositRepository => .repository
  | depositRepositoryCopy => .repositoryCopy
  | fileSubmission => .submission
  | funderPolicy => .policy
  | grantPrimaryFunder => .funder
  | grantDirectFunder => .funder
  | grantPi => .user
  | grantCoPis => .user
  | policyRepositories => .repository
  | publicationJournal => .journal
  | copyPublication => .publication
  | copyRepository => .repository
  | submissionPublication => .publication
  | submissionSubmitter => .user
  | submissionRepositories => .repository
  | submissionPreparers => .user
  | submissionGrants => .grant
  | submissionEffectivePolicies => .policy
  | eventPerformedBy => .user
  | eventSubmission => .submission

def cardinality : Relationship → Cardinality
  | grantCoPis => .toMany
  | policyRepositories => .toMany
  | submissionRepositories => .toMany
  | submissionPreparers => .toMany
  | submissionGrants => .toMany
  | submissionEffectivePolicies => .toMany
  | _ => .toOne

/-- A line that shows the declaration. -/
def summary (r : Relationship) : String :=
  "Relationship \x7b name: " ++ Text.Quoted.encode r.name ++ ", target: " ++ r.target.title ++
    ", cardinality: " ++ r.cardinality.title ++ " \x7d"

end Relationship

namespace Kind

/-- The relationships a kind declares, those with one target first. -/
def relationships : Kind → List Relationship
  | deposit => [.depositSubmission, .depositRepository, .depositRepositoryCopy]
  | file => [.fileSubmission]
  | funder => [.funderPolicy]
  | grant => [.grantPrimaryFunder, .grantDirectFunder, .grantPi, .grantCoPis]
  | journal => []
  | policy => [.policyRepositories]
  | publication => [.publicationJournal]
  | repository => []
  | repositoryCopy => [.copyPublication, .copyRepository]
  | submission =>
    [.submissionPublication, .submissionSubmitter, .submissionRepositories,
      .submissionPreparers, .submissionGrants, .submissionEffectivePolicies]
  | submissionEvent => [.eventPerformedBy, .eventSubmission]
  | user => []

def relationship? (kind : Kind) (name : String) : Option Relationship :=
  kind.relationships.find? (·.name == name)

/-- The number of relationships that can follow one another from here. -/
def rank : Kind → Nat
  | deposit => 5
  | file => 5
  | funder => 2
  | grant => 3
  | journal => 0
  | policy => 1
  | publication => 1
  | repository => 0
  | repositoryCopy => 2
  | submission => 4
  | submissionEvent => 5
  | user => 0

end Kind

namespace Relationship

theorem mem_relationships_iff (r : Relationship) (kind : Kind) :
    r ∈ kind.relationships ↔ r.source = kind := by
  cases r <;> cases kind <;> decide

theorem rank_target_lt (r : Relationship) : r.target.rank < r.source.rank := by
  cases r <;> decide

theorem rank_target_lt_of_mem {r : Relationship} {kind : Kind} (h : r ∈ kind.relationships) :
    r.target.rank < kind.rank := by
  have := r.rank_target_lt
  rwa [(mem_relationships_iff r kind).1 h] at this

theorem relationship?_name (r : Relationship) : r.source.relationship? r.name = some r := by
  cases r <;> decide

end Relationship

end ResearchRecords
