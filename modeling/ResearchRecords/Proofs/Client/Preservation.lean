import ResearchRecords.Proofs.Client.Reading
import ResearchRecords.Proofs.Document.Written

/-!
Fetching a record and sending it back. Whatever of its targets the repository had included, the
update names the same targets again: a relationship to one target keeps its linkage, and a list
keeps its identifiers, those of included targets coming first.
-/
namespace ResearchRecords

open Json (Value)
open Document
open Results

namespace Document.Content

def identifier (target : Target) : Value :=
  .object [("id", .string target.2), ("type", .string target.1)]

/-- Linkage of the declared cardinality: null or one identifier, or a list of identifiers. -/
def WellLinked (document : Value) (r : Relationship) : Prop :=
  let read := linkage (primary document) r.name
  match r.cardinality with
  | .toOne => read = .null ∨ ∃ target, target? read = some target
  | .toMany => ∃ items, read = .array items ∧ ∀ item ∈ items, ∃ target, target? item = some target

/-- The same as a test. -/
def isWellLinked (document : Value) (r : Relationship) : Bool :=
  match r.cardinality, linkage (primary document) r.name with
  | .toOne, read => read.isNull || (target? read).isSome
  | .toMany, .array items => items.all fun item => (target? item).isSome
  | .toMany, _ => false

theorem isWellLinked_iff (document : Value) (r : Relationship) :
    isWellLinked document r = true ↔ WellLinked document r := by
  unfold isWellLinked WellLinked
  cases r.cardinality with
  | toOne =>
    cases linkage (primary document) r.name <;>
      simp [Value.isNull, Option.isSome_iff_exists]
  | toMany =>
    cases linkage (primary document) r.name <;> simp [Option.isSome_iff_exists]

instance (document : Value) (r : Relationship) : Decidable (WellLinked document r) :=
  decidable_of_iff _ (isWellLinked_iff document r)

/-- The sent document gives a relationship the linkage read, but for the order of a list. -/
def Keeps (document sent : Value) (r : Relationship) : Prop :=
  let read := linkage (primary document) r.name
  match r.cardinality with
  | .toOne =>
    relationship? (primary sent) r.name =
      some (linkageValue ((target? read).elim .null identifier))
  | .toMany =>
    relationship? (primary sent) r.name =
        some (linkageValue (.array ((known document r ++ unknown document r).map identifier))) ∧
      ∃ items, read = .array items ∧
        ((known document r ++ unknown document r).map some).Perm (items.map target?)

theorem perm_known_unknown (document : Value) (r : Relationship) :
    (known document r ++ unknown document r).Perm (named document r) :=
  List.filter_append_perm (isIncluded document) (named document r)

/-- A list of identifiers names a target for each of its items. -/
theorem map_some_targets {items : List Value}
    (h : ∀ item ∈ items, ∃ target, target? item = some target) :
    (targets (.array items)).map some = items.map target? := by
  rw [targets]
  induction items with
  | nil => rfl
  | cons item rest ih =>
    obtain ⟨⟨target, htarget⟩, hrest⟩ := List.forall_mem_cons.mp h
    rw [List.filterMap_cons_some htarget, List.map_cons, List.map_cons, ih hrest, htarget]

/-- Well-linked linkage of one target names it, if there is one. -/
theorem targets_eq_toList {read : Value} (h : read = .null ∨ ∃ target, target? read = some target) :
    targets read = (target? read).toList := by
  rcases h with rfl | ⟨target, htarget⟩
  · rfl
  · cases read with
    | object members => rfl
    | _ => simp [target?] at htarget

/-- A record that shows a document writes the identifiers of its targets. -/
theorem identifierValue_eq {document : Value} {record : Record} (h : Shows document record)
    {r : Relationship} (hr : r.source = record.kind) {target : Target}
    (htarget : target ∈ named document r) :
    identifierValue r.target target.2 = identifier target := by
  rw [identifier, h.kinds r hr target htarget]
  rfl

theorem keeps_of_shows {document : Value} {record : Record} (h : Shows document record)
    {r : Relationship} (hr : r.source = record.kind) (hlinked : WellLinked document r) :
    Keeps document (ofRecord .replacing record) r := by
  have hids := h.targetIds_eq hr
  unfold WellLinked at hlinked
  unfold Keeps
  rw [relationship?_ofRecord .replacing record hr]
  cases hcardinality : r.cardinality with
  | toOne =>
    simp only [hcardinality] at hlinked ⊢
    rw [Relationship.limit_of_toOne hcardinality] at hids
    have hnamed : named document r = (target? (linkage (primary document) r.name)).toList :=
      targets_eq_toList hlinked
    have hperm := perm_known_unknown document r
    rw [hnamed] at hperm
    cases hread : target? (linkage (primary document) r.name) with
    | none =>
      rw [hread] at hperm
      have hnone : record.targetIds r = [] := by
        rw [hids, hperm.eq_nil]
        rfl
      unfold linkage?
      rw [hcardinality, hnone]
      rfl
    | some target =>
      rw [hread] at hperm
      have hone : record.targetIds r = [some target.2] := by
        rw [hids, List.perm_singleton.mp hperm]
        rfl
      have htarget : target ∈ named document r := by
        rw [hnamed, hread]
        exact List.mem_singleton_self target
      unfold linkage?
      rw [hcardinality, hone]
      simp only [identifierValue_eq h hr htarget]
      rfl
  | toMany =>
    simp only [hcardinality] at hlinked ⊢
    obtain ⟨items, hread, hitems⟩ := hlinked
    constructor
    · rw [Relationship.limit_of_toMany hcardinality] at hids
      have hidentifiers : ((record.targetIds r).filterMap fun id => id).map
          (identifierValue r.target) = (known document r ++ unknown document r).map identifier := by
        have hsecond : ((known document r ++ unknown document r).map fun t => some t.2).filterMap
            (fun id => id) = (known document r ++ unknown document r).map Prod.snd := by
          rw [List.filterMap_map]
          exact congrFun (List.filterMap_eq_map (f := Prod.snd)) _
        rw [hids, hsecond, List.map_map]
        apply List.map_congr_left
        intro target htarget
        exact identifierValue_eq h hr ((perm_known_unknown document r).mem_iff.mp htarget)
      unfold linkage?
      rw [hcardinality]
      exact congrArg (fun ids => some (linkageValue (.array ids))) hidentifiers
    · refine ⟨items, hread, ?_⟩
      rw [← map_some_targets hitems, ← hread]
      exact (perm_known_unknown document r).map some

end Document.Content

namespace Client

/-- A record that was fetched and is updated as it is names in the update what its document named,
whatever the document included: for a relationship to one target the same identifier or null, and
for a list the same identifiers, the included ones first and each group in the order read. -/
theorem update_keeps_linkage (client : Client) (kind : Kind) (id : String)
    (including : List String) (status : Nat) (body : Bytes) (record : Record)
    (h : ((client.get kind id including).run (.constant ⟨status, body⟩) ()).1 = .ok (some record))
    (document : Value) (hparse : Json.parse body = .ok document)
    (hlinked : ∀ r, r.source = kind → Content.WellLinked document r) :
    ∃ request next text sent, client.update record = .send request next ∧
      request.method = .patch ∧ request.body = some text ∧
      Json.parse (Text.Utf8.encode text) = .ok sent ∧
      ∀ r, r.source = kind → Content.Keeps document sent r := by
  obtain ⟨read, hread, rfl, hshows⟩ := shows_of_readOne (readOne_of_get h)
  obtain rfl := Except.ok.inj (hparse.symm.trans hread)
  obtain ⟨own, hne, hid⟩ := hshows.id
  rw [update, client.updateRequest_eq hid hne]
  exact ⟨_, _, _, _, rfl, rfl, rfl, parse_ofRecord .replacing record,
    fun r hr => Content.keeps_of_shows hshows hr (hlinked r hr)⟩

/-- A grant with one of two funders, an investigator who is included, and three further ones. -/
def grantBody : Bytes :=
  let linked (data : Value) : Value := .object [("data", data)]
  Value.toBytes (.object [
    ("data", .object [("id", .string "1"), ("type", .string "grant"),
      ("relationships", .object [
        ("coPis", linked (.array (["4", "3", "4"].map fun id => Content.identifier ("user", id)))),
        ("directFunder", linked .null),
        ("pi", linked (Content.identifier ("user", "3"))),
        ("primaryFunder", linked (Content.identifier ("funder", "5")))])]),
    ("included", .array [.object [("id", .string "3"), ("type", .string "user")]])])

def grantDocument : Value := (Json.parse grantBody).toOption.getD .null

theorem update_keeps_linkage_grant : ∃ record request next text sent,
    ((loopback.get .grant "1" []).run (.constant ⟨200, grantBody⟩) ()).1 = .ok (some record) ∧
      record.targetIds .grantCoPis = [some "3", some "4", some "4"] ∧
      loopback.update record = .send request next ∧ request.body = some text ∧
      Json.parse (Text.Utf8.encode text) = .ok sent ∧
      Content.Keeps grantDocument sent .grantCoPis ∧
      Content.Keeps grantDocument sent .grantDirectFunder := by
  have hread : ((loopback.get .grant "1" []).run
      (.constant ⟨200, grantBody⟩) ()).1.toOption.join.map
      (fun record => record.targetIds .grantCoPis) = some [some "3", some "4", some "4"] := by
    decide +kernel
  obtain ⟨record, hrecord, hids⟩ := Option.map_eq_some_iff.mp hread
  have h := (toOption_join_eq_some ..).mp hrecord
  have hparse : Json.parse grantBody = .ok grantDocument := by
    have hsome : (Json.parse grantBody).toOption.isSome = true := by decide +kernel
    unfold grantDocument
    cases hresult : Json.parse grantBody with
    | error fault => simp [hresult, Except.toOption] at hsome
    | ok document => rfl
  have hlinked : ∀ r ∈ Kind.grant.relationships, Content.WellLinked grantDocument r := by
    decide +kernel
  obtain ⟨request, next, text, sent, hupdate, _, htext, hsent, hkeeps⟩ :=
    update_keeps_linkage loopback .grant "1" [] 200 grantBody record h grantDocument hparse
      fun r hr => hlinked r ((r.mem_relationships_iff .grant).mpr hr)
  exact ⟨record, request, next, text, sent, h, hids, hupdate, htext, hsent,
    hkeeps .grantCoPis rfl, hkeeps .grantDirectFunder rfl⟩

end Client

end ResearchRecords
