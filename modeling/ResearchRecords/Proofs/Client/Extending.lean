import ResearchRecords.Proofs.Client.Discipline
import ResearchRecords.Proofs.Document.Extending

/-!
Fetching from a newer repository. Relationships that a kind does not declare change nothing in the
record that is fetched, as long as each of them has targets of one type only. Targets of several
types that are not included are the one thing in them that makes fetching fail.
-/
namespace ResearchRecords

open Json (Value Members Node)
open Document (Extends Content.MixedUnder readOne)
open Results

namespace Client

/-- A response that gave a result is told by what is read from its body, or it says that nothing was
found whatever its body is. -/
theorem get_cases {client : Client} {kind : Kind} {id : String} {including : List String}
    {status : Nat} {body : Bytes} {record? : Option Record}
    (h : ((client.get kind id including).run (.constant ⟨status, body⟩) ()).1 = .ok record?) :
    (readOne kind body = .ok record? ∧ ∀ other,
        ((client.get kind id including).run (.constant ⟨status, other⟩) ()).1 =
          ofDocument (readOne kind other)) ∨
      record? = none ∧ ∀ other,
        ((client.get kind id including).run (.constant ⟨status, other⟩) ()).1 = .ok none := by
  unfold get at h ⊢
  cases hrequest : client.getRequest kind id including with
  | error fault =>
    rw [hrequest, run_attempt_error] at h
    cases h
  | ok request =>
    rw [hrequest, run_attempt_ok, Operation.readFound_eq] at h
    simp only [run_attempt_ok, Operation.readFound_eq]
    simp only [Transport.constant, judge] at h ⊢
    by_cases hsuccess : isSuccess status = true
    · rw [if_pos hsuccess] at h
      exact .inl ⟨(mapError_eq_ok ..).mp h, fun other => if_pos hsuccess⟩
    · rw [if_neg hsuccess] at h
      by_cases hmissing : status = 404
      · rw [if_pos hmissing] at h
        refine .inr ⟨(Except.ok.inj h).symm, fun other => ?_⟩
        rw [if_neg hsuccess, if_pos hmissing]
      · rw [if_neg hmissing] at h
        cases h

/-- A repository that adds relationships which a kind does not declare to the resource of a
response: fetching gives the same result, unless one of them has targets of several types that are
not included. In that case, and only then, fetching fails, and the fault names such a relationship. -/
theorem get_extended (client : Client) (kind : Kind) (id : String) (including : List String)
    (status : Nat) (body body' : Bytes) (old new : Members Value)
    (hbody : Json.readWith (Node.value Node.maxDepth) body = .ok (.object old))
    (hbody' : Json.readWith (Node.value Node.maxDepth) body' = .ok (.object new))
    (hextends : Extends kind old new) (record? : Option Record)
    (h : ((client.get kind id including).run (.constant ⟨status, body⟩) ()).1 = .ok record?) :
    (((client.get kind id including).run (.constant ⟨status, body'⟩) ()).1 = .ok record? ↔
        record? = none ∨ ∀ name, ¬ Content.MixedUnder (.object new) name) ∧
      (((client.get kind id including).run (.constant ⟨status, body'⟩) ()).1 ≠ .ok record? →
        ∃ name first second, kind.relationship? name = none ∧
          ¬ Content.MixedUnder (.object old) name ∧ Content.MixedUnder (.object new) name ∧
          ((client.get kind id including).run (.constant ⟨status, body'⟩) ()).1 =
            .error (.document (.mixedTargets name first second))) := by
  rcases get_cases h with ⟨hread, hget⟩ | ⟨rfl, hget⟩
  · rw [hget body']
    cases record? with
    | none =>
      rw [Document.readOne_extended_none hbody hbody' hextends hread]
      simp [ofDocument]
    | some record =>
      obtain ⟨hadded, hfails⟩ := Document.readOne_of_mixedUnder hbody hbody' hextends hread
      by_cases hmixed : ∃ name, Content.MixedUnder (.object new) name
      · obtain ⟨name, first, second, hunder, hfault⟩ := hfails hmixed
        obtain ⟨hundeclared, hnew⟩ := hadded name hunder
        rw [hfault]
        refine ⟨?_, fun _ => ⟨name, first, second, hundeclared, hnew, hunder, rfl⟩⟩
        simpa [ofDocument] using ⟨name, hunder⟩
      · have hunmixed := not_exists.mp hmixed
        rw [Document.readOne_extended hbody hbody' hextends hread hunmixed]
        simp [ofDocument, hunmixed]
  · rw [hget body']
    simp

/-- A grant without relationships. -/
def plainGrant : Members Value :=
  [("data", .object [("id", .string "1"), ("type", .string "grant")])]

def notes (types : List String) : Value :=
  .object [("data", .array (types.map fun type =>
    .object [("id", .string "9"), ("type", .string type)]))]

/-- The same grant with notes of these types. -/
def notedGrant (types : List String) : Members Value :=
  [("data", .object [("id", .string "1"), ("type", .string "grant"),
    ("relationships", .object [("notes", notes types)])])]

theorem isRelationship_notes {types : List String} (h : "" ∉ types) :
    Document.IsRelationship (notes types) := by
  refine ⟨_, _, rfl, by simp [Members.names], rfl, .inr (.inr ⟨_, rfl, ?_⟩)⟩
  intro item hitem
  obtain ⟨type, htype, rfl⟩ := List.mem_map.mp hitem
  exact ⟨_, rfl, by simp [Members.names], type, "9", fun heq => h (heq ▸ htype), by decide, rfl, rfl⟩

theorem extends_notedGrant {types : List String} (h : "" ∉ types) :
    Extends .grant plainGrant (notedGrant types) := by
  refine .inPlace [] [] _ _ ⟨_, _, rfl, rfl, ?_⟩
  exact .anew [("id", .string "1"), ("type", .string "grant")] [] _ (by simp [Members.names])
    ⟨_, rfl, .add "notes" _ rfl (isRelationship_notes h) .nil⟩

theorem readWith_plainGrant :
    Json.readWith (Node.value Node.maxDepth) (Value.object plainGrant).toBytes =
      .ok (.object plainGrant) := by
  have hplain : (Value.object plainGrant).Plain Node.maxDepth := by
    simp [plainGrant, Node.maxDepth]
  rw [Json.readWith_toBytes hplain, Node.value_tree hplain]

theorem readWith_notedGrant (types : List String) :
    Json.readWith (Node.value Node.maxDepth) (Value.object (notedGrant types)).toBytes =
      .ok (.object (notedGrant types)) := by
  have hplain : (Value.object (notedGrant types)).Plain Node.maxDepth := by
    simp [notedGrant, notes, Node.maxDepth]
  rw [Json.readWith_toBytes hplain, Node.value_tree hplain]

/-- Fetching a grant whose document has these members. -/
def fetched (members : Members Value) : Except ClientFault (Option Record) :=
  ((loopback.get .grant "1" []).run (.constant ⟨200, (Value.object members).toBytes⟩) ()).1

theorem get_extended_oneNote :
    ∃ record, fetched plainGrant = .ok (some record) ∧
      fetched (notedGrant ["note"]) = .ok (some record) := by
  have hread : (fetched plainGrant).toOption.join.isSome = true := by decide +kernel
  obtain ⟨record, hrecord⟩ := Option.isSome_iff_exists.mp hread
  have h := (toOption_join_eq_some ..).mp hrecord
  obtain ⟨hiff, _⟩ := get_extended loopback .grant "1" [] 200 _ _ plainGrant (notedGrant ["note"])
    readWith_plainGrant (readWith_notedGrant ["note"]) (extends_notedGrant (by decide)) _ h
  refine ⟨record, h, hiff.mpr (.inr ?_)⟩
  rintro name ⟨relationship, hget, t, ht, u, hu, hne⟩
  have hnotes : Members.get? [("notes", notes ["note"])] name = some relationship := hget
  obtain ⟨_, rfl⟩ : "notes" = name ∧ notes ["note"] = relationship := by
    simpa [Members.get?_cons] using hnotes
  have hremaining : Document.Content.remaining (.object (notedGrant ["note"])) (notes ["note"]) =
      [("note", "9")] := by decide +kernel
  rw [hremaining, List.mem_singleton] at ht hu
  exact hne (ht ▸ hu ▸ rfl)

theorem get_extended_mixedNotes :
    Json.readWith (Node.value Node.maxDepth) (Value.object plainGrant).toBytes =
        .ok (.object plainGrant) ∧
      Json.readWith (Node.value Node.maxDepth)
          (Value.object (notedGrant ["note", "memo"])).toBytes =
        .ok (.object (notedGrant ["note", "memo"])) ∧
      Extends .grant plainGrant (notedGrant ["note", "memo"]) ∧
      (∃ record, fetched plainGrant = .ok (some record)) ∧
      fetched (notedGrant ["note", "memo"]) =
        .error (.document (.mixedTargets "notes" "note" "memo")) := by
  have hread : (fetched plainGrant).toOption.join.isSome = true := by decide +kernel
  obtain ⟨record, hrecord⟩ := Option.isSome_iff_exists.mp hread
  refine ⟨readWith_plainGrant, readWith_notedGrant _, extends_notedGrant (by decide),
    ⟨record, (toOption_join_eq_some ..).mp hrecord⟩, ?_⟩
  have hfault : (match fetched (notedGrant ["note", "memo"]) with
      | .ok _ => none
      | .error fault => some fault) =
        some (.document (.mixedTargets "notes" "note" "memo")) := by decide +kernel
  cases hfetched : fetched (notedGrant ["note", "memo"]) with
  | ok record? => simp [hfetched] at hfault
  | error fault =>
    rw [hfetched] at hfault
    exact congrArg Except.error (Option.some.inj hfault)

end Client

end ResearchRecords
