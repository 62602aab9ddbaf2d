import ResearchRecords.Proofs.Document.Settlement
import ResearchRecords.Proofs.Json.Written

/-!
What decoding depends on. The relationships that a kind declares lead from the primary resource to
resources that are included, and from these to further ones. Decoding succeeds exactly if each
resource that is so reached fits the kind it is reached as. The other resources cannot change the
result, whatever they hold.
-/
namespace ResearchRecords.Document

open Json (Value)
open Results

/-- The linkage of a relationship has an identifier with this type and this id. -/
def Resource.Names (resource : Resource) (r : Relationship) (target : Target) : Prop :=
  ∃ identifier ∈ (resource.linkage r.name).identifiers,
    identifier.type = some target.1 ∧ target.1 ≠ "" ∧
      identifier.id = some target.2 ∧ target.2 ≠ ""

/-- The attributes can be read as those of the kind, and its relationships name targets of the
kinds that they declare. -/
structure Resource.Fits (resource : Resource) (kind : Kind) : Prop where
  attributes : ∃ row, Row.read resource.attributes kind.schema = .ok row
  targets : ∀ r, r.source = kind → ∀ target, resource.Names r target → target.1 = r.target.name

/-- What can be reached from a resource of a kind, with the kind it is reached as. -/
inductive Reachable (document : Document) (kind : Kind) (start : Resource) : Kind → Resource → Prop
  | start : Reachable document kind start kind start
  | included {source : Kind} {resource next : Resource} {r : Relationship} {target : Target}
      (reached : Reachable document kind start source resource) (declared : r.source = source)
      (named : resource.Names r target) (typed : target.1 = r.target.name)
      (found : document.included? target = some next) :
      Reachable document kind start r.target next

/-- The linkage names no target without a type or without an id. -/
def Resource.Proper (resource : Resource) : Prop :=
  ∀ name, ∀ target ∈ (resource.linkage name).targets, target.1 ≠ "" ∧ target.2 ≠ ""

theorem Resource.Proper.names_iff {resource : Resource} (h : resource.Proper) (r : Relationship)
    (target : Target) : resource.Names r target ↔ target ∈ (resource.linkage r.name).targets := by
  simp only [Resource.Names, Linkage.targets, List.mem_filterMap, target?_eq_some_iff]
  constructor
  · rintro ⟨identifier, hmem, htype, _, hid, _⟩
    exact ⟨identifier, hmem, htype, hid⟩
  · rintro ⟨identifier, hmem, htype, hid⟩
    have htarget : target ∈ (resource.linkage r.name).targets :=
      List.mem_filterMap.mpr ⟨identifier, hmem, (target?_eq_some_iff ..).mpr ⟨htype, hid⟩⟩
    obtain ⟨hne, hne'⟩ := h r.name target htarget
    exact ⟨identifier, hmem, htype, hne, hid, hne'⟩

theorem Resource.proper_of_ofValue {v : Value} {resource : Resource}
    (h : Resource.ofValue v = .ok resource) : resource.Proper := by
  intro name target htarget
  rw [(Resource.shows_of_ofValue h).targets_linkage] at htarget
  exact Content.ne_empty_of_mem_targets htarget

theorem proper_of_parse {body : Bytes} {document : Document} (h : parse body = .ok document) :
    ∀ resource ∈ document.included, resource.Proper := by
  obtain ⟨_, _, hmirrors⟩ := mirrors_of_parse h
  intro resource hmem
  obtain ⟨v, _, hv⟩ := exists_mem_of_forall₂ hmirrors.included.flip hmem
  exact Resource.proper_of_ofValue hv

variable {document : Document} {kind source : Kind} {start resource next : Resource}
  {r : Relationship} {target : Target}

theorem mem_of_included? (h : document.included? target = some next) :
    next ∈ document.included ∧ next.type = target.1 := by
  refine ⟨List.mem_reverse.mp (List.mem_of_find?_eq_some h), ?_⟩
  have hidentity := List.find?_some h
  simp only [Bool.and_eq_true, beq_iff_eq] at hidentity
  exact hidentity.1

namespace Reachable

theorem type_eq (hstart : start.type = kind.name)
    (h : Reachable document kind start source resource) : resource.type = source.name := by
  cases h with
  | start => exact hstart
  | included _ _ _ typed found => exact (mem_of_included? found).2.trans typed

/-- What can be reached from a resource that the first one leads to. -/
theorem of_included (declared : r.source = kind) (named : start.Names r target)
    (typed : target.1 = r.target.name) (found : document.included? target = some next)
    (h : Reachable document r.target next source resource) :
    Reachable document kind start source resource := by
  induction h with
  | start => exact .included .start declared named typed found
  | included _ declared named typed found ih => exact .included ih declared named typed found

/-- What can be reached is the first resource, or it can be reached from one that this leads to. -/
theorem start_or_included (h : Reachable document kind start source resource) :
    (source = kind ∧ resource = start) ∨
      ∃ r target next, r.source = kind ∧ start.Names r target ∧ target.1 = r.target.name ∧
        document.included? target = some next ∧
          Reachable document r.target next source resource := by
  induction h with
  | start => exact .inl ⟨rfl, rfl⟩
  | @included source resource next r target _ declared named typed found ih =>
    rcases ih with ⟨rfl, rfl⟩ | ⟨s, first, between, hs, hnamed, htyped, hfound, hreached⟩
    · exact .inr ⟨r, target, next, declared, named, typed, found, .start⟩
    · exact .inr ⟨s, first, between, hs, hnamed, htyped, hfound,
        .included hreached declared named typed found⟩

end Reachable

/-- Every resource that can be reached fits exactly if the first one does and so does whatever can
be reached from those it leads to. -/
theorem forall_reachable_fits_iff :
    (∀ source resource, Reachable document kind start source resource → resource.Fits source) ↔
      start.Fits kind ∧ ∀ r target next, r.source = kind → start.Names r target →
        target.1 = r.target.name → document.included? target = some next →
          ∀ source resource, Reachable document r.target next source resource →
            resource.Fits source := by
  constructor
  · intro h
    refine ⟨h kind start .start, ?_⟩
    intro r target next hr hnamed htyped hfound source resource hreached
    exact h source resource (.of_included hr hnamed htyped hfound hreached)
  · rintro ⟨hstart, hrest⟩ source resource hreached
    rcases hreached.start_or_included with ⟨rfl, rfl⟩ |
      ⟨r, target, next, hr, hnamed, htyped, hfound, hreached⟩
    · exact hstart
    · exact hrest r target next hr hnamed htyped hfound source resource hreached

/-- A resource can be built exactly if its attributes can be read and its relationships built. -/
theorem exists_hydrate_iff_hydratesAll :
    (∃ record, hydrate document kind resource = .ok record) ↔
      (∃ row, Row.read resource.attributes kind.schema = .ok row) ∧
        ∀ r, r.source = kind → ∃ records, HydratesAll document resource r records := by
  constructor
  · rintro ⟨record, h⟩
    obtain ⟨row, _, _, hrow, hlinked, _⟩ := (hydrate_eq_ok_iff ..).mp h
    refine ⟨⟨row, hrow⟩, fun r hr => ?_⟩
    obtain ⟨records, hall, _⟩ := hlinked r hr
    exact ⟨records, hall⟩
  · rintro ⟨⟨row, hrow⟩, hlinked⟩
    have hall : ∀ r, ∃ records, r.source = kind → HydratesAll document resource r records := by
      intro r
      by_cases hr : r.source = kind
      · obtain ⟨records, hrecords⟩ := hlinked r hr
        exact ⟨records, fun _ => hrecords⟩
      · exact ⟨[], fun h => absurd h hr⟩
    choose records hrecords using hall
    refine ⟨_, (hydrate_eq_ok_iff ..).mpr ⟨row, fun r => if r.source = kind then
      r.limit (records r) else [], rfl, hrow, ?_, ?_⟩⟩
    · intro r hr
      exact ⟨records r, hrecords r hr, if_pos hr⟩
    · intro r hr
      exact if_neg hr

/-- A relationship can be built exactly if it names only targets of the declared kind and those
that are included can be built. -/
theorem exists_hydratesAll_iff (hproper : resource.Proper) (r : Relationship) :
    (∃ records, HydratesAll document resource r records) ↔
      ∀ target, resource.Names r target → target.1 = r.target.name ∧
        ∀ next, document.included? target = some next →
          ∃ record, hydrate document r.target next = .ok record := by
  simp only [hproper.names_iff]
  constructor
  · rintro ⟨records, hkinds, hbuilt⟩ target hmem
    refine ⟨hkinds target hmem, fun next hfound => ?_⟩
    have hincluded : isIncluded document target = true := by
      rw [isIncluded, hfound]
      rfl
    obtain ⟨record, _, again, hagain, hhydrate⟩ :=
      exists_mem_of_forall₂ hbuilt (List.mem_filter.mpr ⟨hmem, hincluded⟩)
    obtain rfl := Option.some.inj (hfound.symm.trans hagain)
    exact ⟨record, hhydrate⟩
  · intro h
    have hbuilt : ∀ target ∈ (resource.linkage r.name).targets.filter (isIncluded document),
        ∃ record, Hydrates document r target record := by
      intro target htarget
      obtain ⟨hmem, hincluded⟩ := List.mem_filter.mp htarget
      obtain ⟨next, hfound⟩ := Option.isSome_iff_exists.mp hincluded
      obtain ⟨record, hhydrate⟩ := (h target hmem).2 next hfound
      exact ⟨record, next, hfound, hhydrate⟩
    obtain ⟨records, hrecords⟩ := exists_forall₂ hbuilt
    exact ⟨records, fun target hmem => (h target hmem).1, hrecords⟩

/-- A resource can be built exactly if it fits and the resources that it leads to can be built. -/
theorem exists_hydrate_iff (hproper : resource.Proper) :
    (∃ record, hydrate document kind resource = .ok record) ↔
      resource.Fits kind ∧ ∀ (r : Relationship) target next, r.source = kind →
        resource.Names r target → target.1 = r.target.name →
          document.included? target = some next →
            ∃ record, hydrate document r.target next = .ok record := by
  rw [exists_hydrate_iff_hydratesAll]
  simp only [exists_hydratesAll_iff hproper]
  constructor
  · rintro ⟨hrow, hlinked⟩
    exact ⟨⟨hrow, fun r hr target hnamed => (hlinked r hr target hnamed).1⟩,
      fun r target next hr hnamed _ hfound => (hlinked r hr target hnamed).2 next hfound⟩
  · rintro ⟨⟨hrow, hkinds⟩, hnext⟩
    refine ⟨hrow, fun r hr target hnamed => ⟨hkinds r hr target hnamed, fun next hfound => ?_⟩⟩
    exact hnext r target next hr hnamed (hkinds r hr target hnamed) hfound

/-- A resource can be built exactly if all that can be reached from it fits. -/
theorem exists_hydrate_iff_reachable (hincluded : ∀ next ∈ document.included, next.Proper)
    (hproper : resource.Proper) :
    (∃ record, hydrate document kind resource = .ok record) ↔
      ∀ source reached, Reachable document kind resource source reached → reached.Fits source := by
  -- The kinds along a chain of relationships fall in rank.
  induction hrank : kind.rank using Nat.strong_induction_on generalizing kind resource with
  | _ n ih =>
    rw [exists_hydrate_iff hproper, forall_reachable_fits_iff]
    have hnext : ∀ (r : Relationship) target next, r.source = kind →
        document.included? target = some next →
          ((∃ record, hydrate document r.target next = .ok record) ↔
            ∀ source reached, Reachable document r.target next source reached →
              reached.Fits source) := by
      intro r target next hr hfound
      exact ih _ (hrank ▸ hr ▸ r.rank_target_lt) (hincluded next (mem_of_included? hfound).1) rfl
    constructor
    · rintro ⟨hfits, hbuilt⟩
      exact ⟨hfits, fun r target next hr hnamed htyped hfound =>
        (hnext r target next hr hfound).mp (hbuilt r target next hr hnamed htyped hfound)⟩
    · rintro ⟨hfits, hreached⟩
      exact ⟨hfits, fun r target next hr hnamed htyped hfound =>
        (hnext r target next hr hfound).mpr (hreached r target next hr hnamed htyped hfound)⟩

/-- Documents that include the same for every target that can be reached build the same record. -/
theorem hydrate_eq_of_reachable {changed : Document}
    (hincluded : ∀ next ∈ document.included, next.Proper) (hproper : resource.Proper)
    (h : ∀ source reached r target, Reachable document kind resource source reached →
      r.source = source → reached.Names r target → target.1 = r.target.name →
        changed.included? target = document.included? target) :
    hydrate changed kind resource = hydrate document kind resource := by
  induction hrank : kind.rank using Nat.strong_induction_on generalizing kind resource with
  | _ n ih =>
    rw [hydrate_eq, hydrate_eq]
    congr 1
    funext record
    apply foldlM_congr
    intro record r hr
    have hsource := (r.mem_relationships_iff kind).mp hr
    have htargets : ∀ target ∈ (resource.linkage r.name).targets,
        hydrateTarget changed r target = hydrateTarget document r target := by
      intro target htarget
      have hnamed := (hproper.names_iff r target).mpr htarget
      by_cases htyped : target.1 = r.target.name
      · rw [hydrateTarget, hydrateTarget, h kind resource r target .start hsource hnamed htyped]
        cases hfound : document.included? target with
        | none => rfl
        | some next =>
          have hnext := ih _ (hrank ▸ Relationship.rank_target_lt_of_mem hr)
            (hincluded next (mem_of_included? hfound).1)
            (fun source reached s other hreached => h source reached s other
              (.of_included hsource hnamed htyped hfound hreached)) rfl
          simp only [hnext]
      · rw [hydrateTarget, hydrateTarget, requireKind, if_neg htyped]
        rfl
    rw [hydrateRelationship, hydrateRelationship, mapM_congr htargets]

/-- An included resource of another document has the same type and id, and it is the same if the
first one can be reached. -/
def AgreesAt (document : Document) (kind : Kind) (start a b : Resource) : Prop :=
  b.type = a.type ∧ b.id = a.id ∧ ((∃ source, Reachable document kind start source a) → b = a)

def AgreeWhereReachable (document changed : Document) (kind : Kind) (start : Resource) : Prop :=
  List.Forall₂ (AgreesAt document kind start) document.included changed.included

variable {changed : Document}

theorem AgreeWhereReachable.included?_rel (h : AgreeWhereReachable document changed kind start)
    (target : Target) :
    Option.Rel (AgreesAt document kind start) (document.included? target)
      (changed.included? target) := by
  apply find?_of_forall₂ _ (List.rel_reverse h)
  intro a b hab
  rw [hab.1, hab.2.1]

theorem AgreeWhereReachable.included?_eq (h : AgreeWhereReachable document changed kind start)
    (hreached : Reachable document kind start source resource) (hr : r.source = source)
    (hnamed : resource.Names r target) (htyped : target.1 = r.target.name) :
    changed.included? target = document.included? target := by
  have hrel := h.included?_rel target
  generalize hbefore : document.included? target = before at hrel ⊢
  generalize changed.included? target = after at hrel ⊢
  cases hrel with
  | none => rfl
  | some hab => rw [hab.2.2 ⟨_, .included hreached hr hnamed htyped hbefore⟩]

theorem decodeOne_of_parse {body : Bytes} (hparse : parse body = .ok document)
    (hprimary : document.primary = .one resource) :
    decodeOne kind body = some <$> primaryRecord document kind resource := by
  rw [decodeOne, hparse]
  simp only [bind, Except.bind, hprimary]
  cases primaryRecord document kind resource <;> rfl

/-- A document of one resource of a kind, with an id, is decoded exactly if every resource that can
be reached from it fits the kind it is reached as, which is the kind of its type; otherwise decoding
fails. Another document with this primary resource gives the same result, fault or record, if its
included resources have the same types and ids and differ from those of the first only where these
cannot be reached. -/
theorem decodeOne_by_reachable (kind : Kind) (body : Bytes) (document : Document)
    (resource : Resource) (hparse : parse body = .ok document)
    (hprimary : document.primary = .one resource) (htype : resource.type = kind.name)
    (hid : resource.id.getD "" ≠ "") :
    ((∃ record, decodeOne kind body = .ok (some record)) ↔
        ∀ source reached, Reachable document kind resource source reached →
          reached.Fits source) ∧
      ((∃ fault, decodeOne kind body = .error fault) ↔
        ∃ source reached, Reachable document kind resource source reached ∧
          ¬ reached.Fits source) ∧
      (∀ source reached, Reachable document kind resource source reached →
        reached.type = source.name) ∧
      ∀ other changed, parse other = .ok changed → changed.primary = .one resource →
        AgreeWhereReachable document changed kind resource →
          decodeOne kind other = decodeOne kind body := by
  have hproper : resource.Proper := fun _ _ => ne_empty_of_mem_linkage hparse hprimary
  have hincluded := proper_of_parse hparse
  have hrecord : ∀ document,
      primaryRecord document kind resource = hydrate document kind resource := fun document => by
    rw [primaryRecord, if_neg (not_not.mpr htype), if_neg hid]
  have hdecode : decodeOne kind body = some <$> primaryRecord document kind resource :=
    decodeOne_of_parse hparse hprimary
  rw [hrecord] at hdecode
  refine ⟨?_, ?_, fun source reached h => h.type_eq htype, ?_⟩
  · rw [← exists_hydrate_iff_reachable hincluded hproper, hdecode]
    simp
  · simp only [hdecode, map_eq_error]
    rw [exists_error_iff, exists_hydrate_iff_reachable hincluded hproper]
    simp only [not_forall, exists_prop]
  · intro other changed hother hchanged hagree
    rw [hdecode, decodeOne_of_parse hother hchanged, hrecord]
    congr 1
    exact hydrate_eq_of_reachable hincluded hproper
      fun source reached r target => hagree.included?_eq

/-- A grant with its investigator, who names the grant in turn, and another user with this email. -/
def strayValue (email : Value) : Value :=
  let identifier (type id : String) : Value :=
    .object [("id", .string id), ("type", .string type)]
  let linked (name : String) (target : Value) : Value :=
    .object [(name, .object [("data", target)])]
  .object [
    ("data", .object [("id", .string "1"), ("relationships", linked "pi" (identifier "user" "2")),
      ("type", .string "grant")]),
    ("included", .array [
      .object [("id", .string "2"), ("relationships", linked "grants" (identifier "grant" "1")),
        ("type", .string "user")],
      .object [("attributes", .object [("email", email)]), ("id", .string "3"),
        ("type", .string "user")]])]

def strayGrant : Resource := ⟨"grant", some "1", [], [("pi", .one ⟨some "user", some "2"⟩)]⟩

def investigator : Resource := ⟨"user", some "2", [], [("grants", .one ⟨some "grant", some "1"⟩)]⟩

def strayUser (email : Value) : Resource := ⟨"user", some "3", [("email", email)], []⟩

def strayDocument (email : Value) : Document :=
  ⟨.one strayGrant, [investigator, strayUser email]⟩

theorem parse_strayValue (email : Value) (hplain : ∀ room, email.Plain room)
    (hcanonical : email.canonical = email) :
    parse (strayValue email).toBytes = .ok (strayDocument email) := by
  have hvalue : (strayValue email).canonical = strayValue email := by
    simp only [strayValue, Value.canonical, Value.canonicalMembers, Value.canonicalItems,
      Json.Members.ordered, List.foldl_cons, List.foldl_nil, hcanonical]
    cbv
  have hjson : Json.parse (strayValue email).toBytes = .ok (strayValue email) := by
    rw [Json.parse_toBytes, hvalue]
    simp [strayValue, hplain, Json.Node.maxDepth]
  rw [parse, hjson]
  rfl

/-- An email that is no text does no harm where it cannot be reached. -/
theorem decodeOne_by_reachable_stray :
    (∃ record, decodeOne .grant (strayValue (.bool true)).toBytes = .ok (some record)) ∧
      ¬ (strayUser (.bool true)).Fits .user ∧
      (∀ source reached, Reachable (strayDocument (.bool true)) .grant strayGrant source reached →
        reached.Fits source) ∧
      decodeOne .grant (strayValue (.string "ada")).toBytes =
        decodeOne .grant (strayValue (.bool true)).toBytes := by
  have hdecoded : (decodeOne .grant (strayValue (.bool true)).toBytes).toOption.join.isSome =
      true := by decide +kernel
  have hparse := parse_strayValue (.bool true) (fun room => .bool room true) rfl
  have hother := parse_strayValue (.string "ada") (fun room => .string room "ada") rfl
  obtain ⟨record, hrecord⟩ := Option.isSome_iff_exists.mp hdecoded
  have hok := (toOption_join_eq_some ..).mp hrecord
  obtain ⟨hiff, _, htypes, hsame⟩ :=
    decodeOne_by_reachable .grant _ _ _ hparse rfl rfl (by decide)
  have hfits := hiff.mp ⟨record, hok⟩
  have hbad : ¬ (strayUser (.bool true)).Fits .user := by
    rintro ⟨⟨row, hrow⟩, _⟩
    have hnone : (Row.read [("email", Value.bool true)] Kind.user.schema).toOption.isSome =
        false := by decide +kernel
    rw [strayUser] at hrow
    rw [hrow] at hnone
    cases hnone
  refine ⟨⟨record, hok⟩, hbad, hfits, hsame _ _ hother rfl ?_⟩
  refine .cons ⟨rfl, rfl, fun _ => rfl⟩ (.cons ⟨rfl, rfl, ?_⟩ .nil)
  rintro ⟨source, hreached⟩
  obtain rfl : source = .user := Kind.name_injective (htypes source _ hreached).symm
  exact absurd (hfits _ _ hreached) hbad

end ResearchRecords.Document
