import ResearchRecords.Proofs.Client.Discipline
import ResearchRecords.Proofs.Document.Merging

/-!
What fetching records can report. Once a response is decoded, only listing what is outstanding can
fail: a target of another kind than declared is found in decoding or not at all.
-/
namespace ResearchRecords

open Json (Value)
open Document
open Results

theorem exists_response_of_judge {α : Type} {absent? : Option α}
    {read : Bytes → Except Document.Fault α} {request : Request} (outcome : Outcome)
    {fault : Document.Fault} (h : judge absent? read request outcome = .error (.document fault)) :
    ∃ response, outcome = .ok response ∧ read response.body = .error fault := by
  cases outcome with
  | error failure => cases h
  | ok response =>
    refine ⟨response, rfl, ?_⟩
    rw [judge] at h
    split at h
    · obtain ⟨found, hfound, hsame⟩ := (mapError_eq_error ..).mp h
      exact ClientFault.document.inj hsame ▸ hfound
    · split at h <;> cases h

/-- What an operation finds wrong with a document is what reading the response finds. -/
theorem Operation.read_eq_error_of_run {client : Client} (operation : Operation)
    {response : Response} {fault : Document.Fault}
    (h : ((operation.call client).run (.constant response) ()).1 = .error (.document fault)) :
    operation.read response.body = .error fault := by
  rw [operation.call_eq client] at h
  by_cases hallowed : operation.Allowed
  · obtain ⟨request, hrequest, _⟩ := request_of_allowed client hallowed
    rw [hrequest, Client.run_attempt_ok] at h
    obtain ⟨found, houtcome, hread⟩ := exists_response_of_judge (.ok response) h
    exact Except.ok.inj houtcome ▸ hread
  · obtain ⟨found, hrequest⟩ := request_of_not_allowed client hallowed
    rw [hrequest, Client.run_attempt_error] at h
    cases h

namespace Client

variable {client : Client} (response : Response) {name type : String} {expected : Kind}

theorem decodeOne_eq_error_of_get {kind : Kind} {id : String} {including : List String}
    (h : ((client.get kind id including).run (.constant response) ()).1 =
      .error (.document (.targetKind name expected type))) :
    decodeOne kind response.body = .error (.targetKind name expected type) := by
  have hread : readOne kind response.body = _ :=
    Operation.read_eq_error_of_run (.get kind id including) h
  rcases readOne_eq_error hread with hdecode | ⟨_, houtstanding⟩
  · exact hdecode
  · exact absurd houtstanding (outstanding_ne_targetKind _ name expected type)

theorem decodeMany_eq_error_of_select {selector : Selector}
    (h : ((client.select selector).run (.constant response) ()).1 =
      .error (.document (.targetKind name expected type))) :
    decodeMany selector.kind response.body = .error (.targetKind name expected type) := by
  have hread : Operation.pageFrom selector.kind response.body = _ :=
    Operation.read_eq_error_of_run (.select selector) h
  rcases (bind_eq_error ..).mp hread with hread | ⟨_, _, hread⟩
  · rcases readMany_eq_error hread with hdecode | ⟨_, houtstanding⟩
    · exact hdecode
    · exact absurd houtstanding (outstanding_ne_targetKind _ name expected type)
  · rcases (bind_eq_error ..).mp hread with htotal | ⟨_, _, hread⟩
    · rcases (bind_eq_error ..).mp htotal with hjson | ⟨_, _, htotal⟩
      · obtain ⟨_, _, hfault⟩ := (mapError_eq_error ..).mp hjson
        cases hfault
      · exact absurd htotal (pure_ne_error _ _)
    · exact absurd hread (pure_ne_error _ _)

/-- Merging what is outstanding into the records of a response succeeds whenever the response is
decoded and its entries can be listed, for one record and for several, whose ids may repeat. So a
target of the wrong kind that fetching a record or a page reports is one that decoding reports. Of a
response that is decoded, only a relationship that the kind does not declare can be reported to have
targets of several types. -/
theorem merging_never_fails (kind : Kind) (body : Bytes) :
    (∀ records found, decodeMany kind body = .ok records → outstanding body = .ok found →
        ∃ merged, mergeAll found records = (merged, none)) ∧
      (∀ record found, decodeOne kind body = .ok (some record) → outstanding body = .ok found →
        ∃ merged, mergeOwn found record = (merged, none)) ∧
      (∀ (client : Client) (id : String) (including : List String) (status : Nat)
          (name : String) (expected : Kind) (type : String),
        ((client.get kind id including).run (.constant ⟨status, body⟩) ()).1 =
            .error (.document (.targetKind name expected type)) →
          decodeOne kind body = .error (.targetKind name expected type)) ∧
      (∀ (client : Client) (selector : Selector) (status : Nat)
          (name : String) (expected : Kind) (type : String), selector.kind = kind →
        ((client.select selector).run (.constant ⟨status, body⟩) ()).1 =
            .error (.document (.targetKind name expected type)) →
          decodeMany kind body = .error (.targetKind name expected type)) ∧
      ((∃ records, decodeMany kind body = .ok records) ∨
          (∃ record?, decodeOne kind body = .ok record?) →
        ∀ name first second, outstanding body = .error (.mixedTargets name first second) →
          kind.relationship? name = none) := by
  refine ⟨fun records found hdecode hfound => exists_mergeAll hdecode hfound,
    fun record found hdecode hfound => exists_mergeOwn_of_decodeOne hdecode hfound,
    fun client id including status name expected type h =>
      decodeOne_eq_error_of_get ⟨status, body⟩ h, ?_, ?_⟩
  · rintro client selector status name expected type rfl h
    exact decodeMany_eq_error_of_select ⟨status, body⟩ h
  · rintro (⟨records, hdecode⟩ | ⟨record?, hdecode⟩) name first second h
    · exact undeclared_of_mixedTargets hdecode h
    · exact undeclared_of_mixedTargets (decodeMany_of_decodeOne hdecode) h

/-- Two grants under one id, with others of their own beside an investigator, and with notes. -/
def twinGrants (notes : List String) : Bytes :=
  let linked (targets : List Target) : Value :=
    .object [("data", .array (targets.map fun target =>
      .object [("id", .string target.2), ("type", .string target.1)]))]
  let grant (users : List String) : Value :=
    .object [("id", .string "1"), ("relationships", .object [
      ("coPis", linked (users.map fun id => ("user", id))),
      ("notes", linked (notes.map fun type => (type, "9")))]), ("type", .string "grant")]
  Value.toBytes (.object [("data", .array [grant ["3"], grant ["3", "5"]])])

/-- Decoding and merging, as far as both succeed. -/
def mergedIds (body : Bytes) : Option (List (List (Option String))) := do
  let records ← (decodeMany .grant body).toOption
  let found ← (outstanding body).toOption
  return (mergeAll found records).1.map (Record.targetIds · .grantCoPis)

theorem merging_never_fails_twinGrants :
    (∃ records found merged, decodeMany .grant (twinGrants ["note"]) = .ok records ∧
      outstanding (twinGrants ["note"]) = .ok found ∧ mergeAll found records = (merged, none) ∧
      merged.map (Record.targetIds · .grantCoPis) = [[some "3", some "5"], [some "3", some "5"]]) ∧
    (∃ records, decodeMany .grant (twinGrants ["note", "memo"]) = .ok records) ∧
    outstanding (twinGrants ["note", "memo"]) = .error (.mixedTargets "notes" "note" "memo") ∧
    Kind.grant.relationship? "notes" = none := by
  have hmerged : mergedIds (twinGrants ["note"]) =
      some [[some "3", some "5"], [some "3", some "5"]] := by decide +kernel
  have hdecoded : (decodeMany .grant (twinGrants ["note", "memo"])).toOption.isSome = true := by
    decide +kernel
  have hmixed : outstanding (twinGrants ["note", "memo"]) =
      .error (.mixedTargets "notes" "note" "memo") := by decide +kernel
  obtain ⟨records, hrecords, hmerged⟩ := Option.bind_eq_some_iff.mp hmerged
  obtain ⟨found, hfound, hmerged⟩ := Option.bind_eq_some_iff.mp hmerged
  have hdecode := (toOption_eq_some ..).mp hrecords
  have houtstanding := (toOption_eq_some ..).mp hfound
  obtain ⟨merged, hmerge⟩ := (merging_never_fails ..).1 records found hdecode houtstanding
  have hundeclared := (merging_never_fails .grant (twinGrants ["note", "memo"])).2.2.2.2
  have hmany := eq_ok_getD hdecoded []
  refine ⟨⟨records, found, merged, hdecode, houtstanding, hmerge, ?_⟩, ⟨_, hmany⟩, hmixed,
    hundeclared (.inl ⟨_, hmany⟩) "notes" "note" "memo" hmixed⟩
  rw [hmerge] at hmerged
  exact Option.some.inj hmerged

end Client

end ResearchRecords
