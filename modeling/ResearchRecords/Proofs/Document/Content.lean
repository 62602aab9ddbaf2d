import ResearchRecords.Document.Merge
import ResearchRecords.Proofs.Document.Scanning

/-!
What a response says about its records, told from the value of its text alone: the primary value,
the linkage of its relationships, the targets that a linkage names, and the values included with it.
A document that was read shows just this, and so does a scan of the same text.
-/
namespace ResearchRecords.Document

open Json (Value Members Node)
open Results

def resourceFields : List String := ["type", "id", "attributes", "relationships"]

namespace Content

def primary (document : Value) : Value :=
  (Members.get? (document.members []) "data").getD .null

def included (document : Value) : List Value :=
  match Members.get? (document.members []) "included" with
  | some (.array items) => items
  | _ => []

/-- The type and the id of a resource that is included. -/
def identity? (resource : Value) : Option Target :=
  match Members.get? (resource.members resourceFields) "type",
    Members.get? (resource.members resourceFields) "id" with
  | some (.string type), some (.string id) => some (type, id)
  | _, _ => none

/-- The value included with this type and id; of several, the last. -/
def included? (document : Value) (target : Target) : Option Value :=
  (included document).reverse.find? fun resource => identity? resource == some target

/-- The members of the attributes of a resource. -/
def attributes (resource : Value) : Members Value :=
  ((Members.get? (resource.members resourceFields) "attributes").getD .null).members []

/-- The value a resource has under the name of a relationship. -/
def relationship? (resource : Value) (name : String) : Option Value :=
  let relationships := (Members.get? (resource.members resourceFields) "relationships").getD .null
  Members.get? (relationships.members []) name

/-- The linkage a resource gives for a relationship; null also where there is none. -/
def linkage (resource : Value) (name : String) : Value :=
  ((relationship? resource name).map relationshipData).getD .null

/-- A string under a name that is not empty. -/
def text? (members : Members Value) (name : String) : Option String :=
  match Members.get? members name with
  | some (.string s) => if s = "" then none else some s
  | _ => none

/-- The type and the id of an identifier, if it has both. -/
def target? : Value → Option Target
  | .object members =>
    match text? members "type", text? members "id" with
    | some type, some id => some (type, id)
    | _, _ => none
  | _ => none

/-- The targets that a linkage names, in its order. -/
def targets : Value → List Target
  | .object members => (target? (.object members)).toList
  | .array items => items.filterMap target?
  | _ => []

theorem text?_eq (members : Members Value) (name : String) :
    text? members name = Members.get? members name >>= nonEmpty := by
  unfold text?
  cases Members.get? members name with
  | none => rfl
  | some v =>
    cases v with
    | string s => by_cases hs : s = "" <;> simp [nonEmpty, hs]
    | _ => rfl

theorem target?_ofMembers (members : Members Value) :
    (Identifier.ofMembers members).target? = target? (.object members) := by
  rw [Identifier.ofMembers, ← text?_eq, ← text?_eq]
  rfl

theorem text?_ne_empty {members : Members Value} {name s : String}
    (h : text? members name = some s) : s ≠ "" := by
  unfold text? at h
  split at h
  · split at h
    · simp at h
    · next hne => exact Option.some.inj h ▸ hne
  · simp at h

/-- The targets of a linkage that was read are those its value names. -/
theorem targets_ofValue (v : Value) : (Linkage.ofValue v).targets = targets v := by
  cases v with
  | object members =>
    rw [Linkage.ofValue, Linkage.targets, Linkage.identifiers, targets, ← target?_ofMembers]
    cases h : (Identifier.ofMembers members).target? <;> simp [h]
  | array items =>
    rw [Linkage.ofValue, Linkage.targets, Linkage.identifiers, targets, List.filterMap_filterMap]
    apply List.filterMap_congr
    intro item _
    cases item with
    | object members => exact target?_ofMembers members
    | _ => rfl
  | _ => rfl

theorem ne_empty_of_mem_targets {v : Value} {t : Target} (h : t ∈ targets v) :
    t.1 ≠ "" ∧ t.2 ≠ "" := by
  have hsome : ∃ item, target? item = some t := by
    cases v with
    | object members => exact ⟨_, Option.mem_toList.mp h⟩
    | array items =>
      obtain ⟨item, _, hitem⟩ := List.mem_filterMap.mp h
      exact ⟨item, hitem⟩
    | _ => simp [targets] at h
  obtain ⟨item, hitem⟩ := hsome
  cases item with
  | object members =>
    simp only [target?] at hitem
    split at hitem
    · next htype hid =>
      obtain rfl := Option.some.inj hitem
      exact ⟨text?_ne_empty htype, text?_ne_empty hid⟩
    · simp at hitem
  | _ => simp [target?] at hitem

def items : Value → List Value
  | .array items => items
  | _ => []

/-- The types and ids of what is included. -/
def identities (document : Value) : List Target :=
  (included document).filterMap identity?

theorem included_eq (document : Value) : included document =
    items ((Members.get? (document.members []) "included").getD .null) := by
  rw [included]
  cases Members.get? (document.members []) "included" with
  | none => rfl
  | some v => cases v <;> rfl

theorem items_canonical (v : Value) : items v.canonical = (items v).map Value.canonical := by
  cases v with
  | array values => exact congrArg items (Value.canonical_array values)
  | object members => exact congrArg items (Value.canonical_object members)
  | _ => rfl

theorem identity?_canonical (v : Value) : identity? v.canonical = identity? v := by
  rw [identity?, identity?, Value.get?_members_canonical, Value.get?_members_canonical]
  cases Members.get? (v.members resourceFields) "type" with
  | none => rfl
  | some type =>
    cases Members.get? (v.members resourceFields) "id" with
    | none => cases type <;> rfl
    | some id => cases type <;> cases id <;> rfl

end Content

end ResearchRecords.Document
