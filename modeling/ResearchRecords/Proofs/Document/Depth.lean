import ResearchRecords.Proofs.Document.Concordance
import ResearchRecords.Proofs.Document.Reachable

/-!
How deep records are built. Building a record calls itself for the included targets of declared
relationships only, and the kind of such a target has a lower rank. So calls are nested six deep at
most, whatever the document links to what, and so are the records that come of them.
-/
namespace ResearchRecords

open Json (Value)
open Results

/-- A kind has no more than five relationships that follow one another. -/
theorem Kind.rank_le (kind : Kind) : kind.rank ≤ 5 := by
  cases kind <;> decide

/-- A record has another one as the target of some relationship. -/
def Record.Links (record target : Record) : Prop := ∃ r, target ∈ record.targets r

namespace Document

section Step

variable (build : Kind → Resource → Except Fault Record) (document : Document)

def hydrateTargetBy (r : Relationship) (target : Target) : Except Fault (Option Record) := do
  requireKind r target
  match document.included? target with
  | none => return none
  | some resource => return some (← build r.target resource)

def hydrateRelationshipBy (resource : Resource) (record : Record) (r : Relationship) :
    Except Fault Record := do
  let found ← (resource.linkage r.name).targets.mapM (hydrateTargetBy build document r)
  linkTargets record r found.reduceOption

def hydrateBy (kind : Kind) (resource : Resource) : Except Fault Record :=
  readRecord kind resource >>= kind.relationships.foldlM (hydrateRelationshipBy build document resource)

end Step

/-- Records are built level by level, without an end to it. -/
theorem hydrate_eq_hydrateBy (document : Document) :
    hydrate document = hydrateBy (hydrate document) document := by
  funext kind resource
  exact hydrate_eq document kind resource

/-- Building the first of two resources, as a record of its kind, calls for the second: it is included
for a target of a declared relationship, whose type is the declared one. -/
def Calls (document : Document) (call next : Kind × Resource) : Prop :=
  ∃ r : Relationship, r.source = call.1 ∧ r.target = next.1 ∧
    ∃ target ∈ (call.2.linkage r.name).targets,
      target.1 = r.target.name ∧ document.included? target = some next.2

section Calls

variable {document : Document} {call next : Kind × Resource}

theorem Calls.type_eq (h : Calls document call next) : next.2.type = next.1.name := by
  obtain ⟨r, _, htarget, target, _, htype, hincluded⟩ := h
  rw [(mem_of_included? hincluded).2, htype, htarget]

theorem Calls.rank_lt (h : Calls document call next) : next.1.rank < call.1.rank := by
  obtain ⟨r, hsource, htarget, _⟩ := h
  rw [← hsource, ← htarget]
  exact r.rank_target_lt

/-- No more than the calls themselves is used of what is built below. -/
theorem hydrateBy_congr {build build' : Kind → Resource → Except Fault Record} {kind : Kind}
    {resource : Resource}
    (h : ∀ next, Calls document (kind, resource) next → build next.1 next.2 = build' next.1 next.2) :
    hydrateBy build document kind resource = hydrateBy build' document kind resource := by
  unfold hydrateBy
  congr 1
  funext record
  refine foldlM_congr (fun record r hr => ?_) record
  unfold hydrateRelationshipBy
  congr 1
  refine mapM_congr fun target htarget => ?_
  unfold hydrateTargetBy
  by_cases htype : target.1 = r.target.name
  · cases hincluded : document.included? target with
    | none => rfl
    | some next =>
      have hcall : Calls document (kind, resource) (r.target, next) :=
        ⟨r, (Relationship.mem_relationships_iff ..).mp hr, rfl, target, htarget, htype, hincluded⟩
      simp only [h _ hcall]
  · simp [requireKind, htype, bind, Except.bind]

/-- Calls one within the other are no more than the rank of the first kind allows. -/
theorem length_calls_le {calls : List (Kind × Resource)}
    (h : List.IsChain (Calls document) (call :: calls)) : calls.length ≤ call.1.rank := by
  induction calls generalizing call with
  | nil => exact Nat.zero_le _
  | cons next rest ih =>
    obtain ⟨hcalls, hrest⟩ := List.isChain_cons_cons.mp h
    have := hcalls.rank_lt
    have := ih hrest
    rw [List.length_cons]
    omega

/-- As many levels as the rank of the kind and one more are all there are: what stands for those
below does not matter. -/
theorem iterate_hydrateBy (document : Document) (bottom : Kind → Resource → Except Fault Record)
    {levels : Nat} {kind : Kind} (hlevels : kind.rank < levels) (resource : Resource) :
    (fun build => hydrateBy build document)^[levels] bottom kind resource =
      hydrate document kind resource := by
  induction levels generalizing kind resource with
  | zero => exact absurd hlevels (Nat.not_lt_zero _)
  | succ levels ih =>
    rw [Function.iterate_succ_apply', hydrate_eq_hydrateBy document]
    refine hydrateBy_congr fun next hcall => ?_
    have hrank : next.1.rank < kind.rank := hcall.rank_lt
    exact ih (by omega) next.2

end Calls

/-- A record is built from a resource, as a record of its kind. -/
def Built (document : Document) (record : Record) : Prop :=
  ∃ resource, hydrate document record.kind resource = .ok record

section Nested

variable {document : Document} {record target : Record}

theorem Built.of_links (h : Built document record) (hlinks : record.Links target) :
    Built document target ∧ target.kind.rank < record.kind.rank := by
  obtain ⟨resource, hhydrate⟩ := h
  obtain ⟨r, hmem⟩ := hlinks
  obtain ⟨_, targets, heq, _, hlinked, hforeign⟩ := (hydrate_eq_ok_iff ..).mp hhydrate
  have htargets : record.targets r = targets r := by rw [heq]
  rw [htargets] at hmem
  by_cases hsource : r.source = record.kind
  · obtain ⟨records, ⟨_, hrecords⟩, hheld⟩ := hlinked r hsource
    rw [hheld] at hmem
    obtain ⟨_, _, next, _, hnext⟩ :=
      exists_mem_of_forall₂ hrecords.flip (Relationship.mem_of_mem_limit hmem)
    have hkind := hydrate_kind hnext
    refine ⟨⟨next, hkind ▸ hnext⟩, ?_⟩
    rw [hkind, ← hsource]
    exact r.rank_target_lt
  · rw [hforeign r hsource] at hmem
    exact absurd hmem List.not_mem_nil

theorem Built.length_le (h : Built document record) {chain : List Record}
    (hchain : List.IsChain Record.Links (record :: chain)) : chain.length ≤ record.kind.rank := by
  induction chain generalizing record with
  | nil => exact Nat.zero_le _
  | cons target rest ih =>
    obtain ⟨hlinks, hrest⟩ := List.isChain_cons_cons.mp hchain
    obtain ⟨hbuilt, hrank⟩ := h.of_links hlinks
    have := ih hbuilt hrest
    rw [List.length_cons]
    omega

theorem built_of_primaryRecord {kind : Kind} {resource : Resource}
    (h : primaryRecord document kind resource = .ok record) :
    record.kind = kind ∧ Built document record := by
  obtain ⟨_, _, hhydrate⟩ := (primaryRecord_eq_ok ..).mp h
  have hkind := hydrate_kind hhydrate
  exact ⟨hkind, resource, hkind ▸ hhydrate⟩

end Nested

/-- Building ends for every document, with six calls within one another at most. The rank falls along
every declared relationship, and calls are made for included targets of such relationships only, which
have the declared type. So six levels give the whole result whatever stands for more of them, and
nothing but this result agrees with itself level by level. In a result, no more than six records are
nested. -/
theorem hydration_ends (kind : Kind) :
    (∀ r : Relationship, r.target.rank < r.source.rank) ∧ kind.rank + 1 ≤ 6 ∧
      (∀ document resource,
        (∀ next, Calls document (kind, resource) next →
          next.2.type = next.1.name ∧ next.1.rank < kind.rank) ∧
        (∀ build, (∀ next, Calls document (kind, resource) next →
            build next.1 next.2 = hydrate document next.1 next.2) →
          hydrateBy build document kind resource = hydrate document kind resource) ∧
        (∀ calls, List.IsChain (Calls document) ((kind, resource) :: calls) →
          ((kind, resource) :: calls).length ≤ kind.rank + 1) ∧
        ∀ bottom, (fun build => hydrateBy build document)^[kind.rank + 1] bottom kind resource =
          hydrate document kind resource) ∧
      (∀ document build, build = hydrateBy build document → build = hydrate document) ∧
      (∀ body record, decodeOne kind body = .ok (some record) → ∀ chain,
        List.IsChain Record.Links (record :: chain) → (record :: chain).length ≤ kind.rank + 1) ∧
      ∀ body records, decodeMany kind body = .ok records → ∀ record ∈ records, ∀ chain,
        List.IsChain Record.Links (record :: chain) →
          (record :: chain).length ≤ kind.rank + 1 := by
  refine ⟨Relationship.rank_target_lt, Nat.succ_le_succ kind.rank_le, ?_, ?_, ?_, ?_⟩
  · intro document resource
    refine ⟨fun next h => ⟨h.type_eq, h.rank_lt⟩, fun build h => ?_, fun calls h => ?_, fun bottom => ?_⟩
    · rw [hydrate_eq_hydrateBy]
      exact hydrateBy_congr h
    · exact Nat.succ_le_succ (length_calls_le h)
    · exact iterate_hydrateBy document bottom (Nat.lt_succ_self _) resource
  · intro document build hfixed
    funext other resource
    have hiterate : (fun build => hydrateBy build document)^[6] build = build :=
      Function.iterate_fixed hfixed.symm 6
    rw [← iterate_hydrateBy document build (Nat.lt_succ_of_le other.rank_le) resource, hiterate]
  · intro body record h chain hchain
    obtain ⟨document, resource, _, _, hrecord⟩ := (decodeOne_eq_some ..).mp h
    obtain ⟨rfl, hbuilt⟩ := built_of_primaryRecord hrecord
    exact Nat.succ_le_succ (hbuilt.length_le hchain)
  · intro body records h record hmem chain hchain
    obtain ⟨document, _, hrecords⟩ := (decodeMany_eq_ok ..).mp h
    obtain ⟨resource, _, hrecord⟩ := exists_mem_of_forall₂ hrecords.flip hmem
    obtain ⟨rfl, hbuilt⟩ := built_of_primaryRecord hrecord
    exact Nat.succ_le_succ (hbuilt.length_le hchain)

/-- The first target of each of these relationships, each of the record before. -/
def along (record : Record) : List Relationship → Option (List Record)
  | [] => some []
  | r :: rest => do
    let target ← (record.targets r).head?
    return target :: (← along target rest)

theorem isChain_along {record : Record} {rs : List Relationship} {chain : List Record}
    (h : along record rs = some chain) :
    List.IsChain Record.Links (record :: chain) ∧ chain.length = rs.length := by
  induction rs generalizing record chain with
  | nil =>
    obtain rfl := Option.some.inj h
    exact ⟨.singleton _, rfl⟩
  | cons r rest ih =>
    simp only [along, Option.bind_eq_bind, Option.bind_eq_some_iff, Option.pure_def,
      Option.some.injEq] at h
    obtain ⟨target, htarget, further, hfurther, rfl⟩ := h
    obtain ⟨hchain, hlength⟩ := ih hfurther
    exact ⟨.cons_cons ⟨r, List.mem_of_head? htarget⟩ hchain, congrArg Nat.succ hlength⟩

/-- What a ring is made of: a record that leads to the next one, and back to the deposit. -/
def linkValue (type id name target next : String) : Value :=
  let identifier (type id : String) : Value := .object [("id", .string id), ("type", .string type)]
  .object [("id", .string id), ("relationships", .object [
    ("deposits", .object [("data", .array [identifier "deposit" "1"])]),
    (name, .object [("data", identifier target next)])]), ("type", .string type)]

def linkResource (type id name target next : String) : Resource :=
  ⟨type, some id, [], [("deposits", .many [⟨some "deposit", some "1"⟩]),
    (name, .one ⟨some target, some next⟩)]⟩

/-- A deposit that leads to a repository over four records between them. -/
def ringOf {α : Type} (link : String → String → String → String → String → α) : List α :=
  [link "deposit" "1" "submission" "submission" "2", link "submission" "2" "grants" "grant" "3",
    link "grant" "3" "primaryFunder" "funder" "4", link "funder" "4" "policy" "policy" "5",
    link "policy" "5" "repositories" "repository" "6", link "repository" "6" "policies" "policy" "5"]

def ringValue : Value :=
  .object [("data", linkValue "deposit" "1" "submission" "submission" "2"),
    ("included", .array (ringOf linkValue))]

theorem parse_ringValue : parse ringValue.toBytes =
    .ok ⟨.one (linkResource "deposit" "1" "submission" "submission" "2"), ringOf linkResource⟩ := by
  have hplain : ringValue.Plain Json.Node.maxDepth := by
    simp [ringValue, ringOf, linkValue, Json.Node.maxDepth]
  rw [parse, Json.parse_toBytes hplain]
  rfl

/-- The ring gives six records within one another, and not one more. -/
theorem hydration_ends_ring : ∃ record chain,
    decodeOne .deposit ringValue.toBytes = .ok (some record) ∧
      List.IsChain Record.Links (record :: chain) ∧ (record :: chain).length = 6 ∧
      ∀ longer, List.IsChain Record.Links (record :: longer) → (record :: longer).length ≤ 6 := by
  have hdecode : decodeOne .deposit ringValue.toBytes = _ := decodeOne_of_parse parse_ringValue rfl
  have hsome : ((decodeOne .deposit ringValue.toBytes).toOption.join.bind fun record =>
      along record [.depositSubmission, .submissionGrants, .grantPrimaryFunder, .funderPolicy,
        .policyRepositories]).isSome = true := by
    rw [hdecode]
    decide +kernel
  obtain ⟨chain, hfound⟩ := Option.isSome_iff_exists.mp hsome
  obtain ⟨record, hrecord, halong⟩ := Option.bind_eq_some_iff.mp hfound
  have hok := (toOption_join_eq_some ..).mp hrecord
  obtain ⟨hchain, hlength⟩ := isChain_along halong
  obtain ⟨_, _, _, _, hone, _⟩ := hydration_ends .deposit
  exact ⟨record, chain, hok, hchain, congrArg Nat.succ hlength, hone _ record hok⟩

end Document

end ResearchRecords
