import ResearchRecords.Proofs.Json.Members
import ResearchRecords.Proofs.Results
import ResearchRecords.Proofs.Timestamp.RoundTrip
import ResearchRecords.Record.Attribute

/-!
Attributes are read back as they were written. A value that is written as null is unset, so it may
also be left out.
-/
namespace ResearchRecords

open Json (Members)
open Results

namespace AttributeType

theorem readOptional_ofOption {α : Type} (read : Json.Value → Except Json.Fault α)
    (write : α → Json.Value) (hread : ∀ a, read (write a) = .ok a)
    (hnull : ∀ a, (write a).isNull = false) (a? : Option α) :
    readOptional read (.ofOption write a?) = .ok a? := by
  cases a? with
  | none => rfl
  | some a =>
    have hne : write a ≠ .null := by
      intro h
      have := hnull a
      rw [h] at this
      simp [Json.Value.isNull] at this
    show readOptional read (write a) = .ok (some a)
    rw [readOptional.eq_2 _ _ hne, map_eq_ok]
    exact ⟨a, hread a, rfl⟩

theorem readList_array {α : Type} (read : Json.Value → Except Json.Fault α)
    (write : α → Json.Value) (hread : ∀ a, read (write a) = .ok a) (items : List α) :
    readList read (.array (items.map write)) = .ok items := by
  rw [readList, mapM_eq_ok_iff, List.forall₂_map_left_iff, List.forall₂_same]
  exact fun a _ => hread a

theorem readTime_text (t : Timestamp) : readTime (.string t.text) = .ok t := by
  rw [readTime, Timestamp.parse_text]
  rfl

theorem ofValue_value {v : Vocabulary} (t : Term v) : Term.ofValue v t.value = .ok t := by
  show Term.ofSpelling v t.spelling = .ok t
  rw [Term.ofSpelling, Term.ofSpelling?_spelling]

/-- What is written for an attribute is read back. -/
theorem read_write (type : AttributeType) (value : type.Value) :
    type.read (type.write value) = .ok value := by
  cases type with
  | text => exact readOptional_ofOption readText .string (fun _ => rfl) (fun _ => rfl) value
  | flag => exact readOptional_ofOption readFlag .bool (fun _ => rfl) (fun _ => rfl) value
  | time =>
    exact readOptional_ofOption readTime (fun t => .string t.text) readTime_text (fun _ => rfl)
      value
  | term v =>
    exact readOptional_ofOption (Term.ofValue v) Term.value ofValue_value (fun _ => rfl) value
  | texts => exact readList_array readText .string (fun _ => rfl) value
  | terms v => exact readList_array (Term.ofValue v) Term.value ofValue_value value

theorem eq_unset_of_isNull {type : AttributeType} {value : type.Value}
    (h : (type.write value).isNull = true) : value = type.unset := by
  have hoption : ∀ {α : Type} {write : α → Json.Value}, (∀ a, (write a).isNull = false) →
      ∀ a? : Option α, (Json.Value.ofOption write a?).isNull = true → a? = none := by
    intro α write hnull a? h
    cases a? with
    | none => rfl
    | some a => simp [Json.Value.ofOption, hnull] at h
  cases type with
  | text => exact hoption (fun _ => rfl) value h
  | flag => exact hoption (fun _ => rfl) value h
  | time => exact hoption (fun _ => rfl) value h
  | term v => exact hoption (fun _ => rfl) value h
  | texts => simp [write, Json.Value.isNull] at h
  | terms v => simp [write, Json.Value.isNull] at h

end AttributeType

namespace Row

theorem names_write (schema : List Attribute) (row : Row schema) :
    Members.names (write schema row) = schema.map Attribute.name := by
  induction schema with
  | nil => rfl
  | cons a rest ih => exact congrArg (a.name :: ·) (ih row.2)

/-- A row is read from members that show each of its values, or leave it out where it is null. -/
theorem read_eq {members : Members Json.Value} (schema : List Attribute) (row : Row schema)
    (h : ∀ m ∈ write schema row, Members.get? members m.1 = some m.2 ∨
      Members.get? members m.1 = none ∧ m.2.isNull = true) : read members schema = .ok row := by
  induction schema with
  | nil => rfl
  | cons a rest ih =>
    obtain ⟨value, row⟩ := row
    obtain ⟨hfirst, hrest⟩ := List.forall_mem_cons.mp h
    have hattribute : readAttribute members a = .ok value := by
      rcases hfirst with hfound | ⟨hmissing, hnull⟩
      · rw [readAttribute, hfound]
        exact AttributeType.read_write a.type value
      · have hunset : value = a.type.unset := AttributeType.eq_unset_of_isNull hnull
        rw [readAttribute, hmissing, hunset]
    exact (bind_eq_ok ..).mpr ⟨value, hattribute, (bind_eq_ok ..).mpr ⟨row, ih row hrest, rfl⟩⟩

end Row

theorem sorted_write (kind : Kind) (attributes : Attributes kind) :
    Members.Sorted (Row.write kind.schema attributes) := by
  have h := kind.schema_sorted
  rw [← Row.names_write kind.schema attributes] at h
  exact List.pairwise_map.mp h

end ResearchRecords
