import ResearchRecords.Document.Replace
import ResearchRecords.Proofs.Document.Written

/-!
The document of an update in two ways. Putting null under the unset relationships of a full document
gives the replacing document, since the members that are put in stand in their places, and nothing
that is there is written over.
-/
namespace ResearchRecords

open Json (Value Members)

namespace Json.Members

variable {α : Type}

theorem sorted_insertNew {members : Members α} (h : Sorted members) (name : String) (value : α) :
    Sorted (insertNew name value members) := by
  unfold insertNew
  split
  · exact h
  · exact sorted_insert h name value

theorem get?_insertNew {members : Members α} (h : Sorted members) (name : String) (value : α)
    (other : String) : get? (insertNew name value members) other =
      (get? members other).or (if name = other then some value else none) := by
  unfold insertNew
  by_cases heq : name = other
  · subst heq
    cases hheld : get? members name with
    | some held => simp [hheld]
    | none => simp [get?_insert h]
  · rw [if_neg heq, Option.or_none]
    split
    · rfl
    · rw [get?_insert h, if_neg heq]

end Json.Members

namespace Document

theorem sorted_insertNulls {relationships : Members Value} (h : Members.Sorted relationships)
    (names : List String) : Members.Sorted (insertNulls names relationships) := by
  induction names generalizing relationships with
  | nil => exact h
  | cons name names ih => exact ih (Members.sorted_insertNew h name _)

/-- Null stands under the names that had nothing, and what was there is kept. -/
theorem get?_insertNulls {relationships : Members Value} (h : Members.Sorted relationships)
    (names : List String) (name : String) : Members.get? (insertNulls names relationships) name =
      (Members.get? relationships name).or
        (if name ∈ names then some (linkageValue .null) else none) := by
  induction names generalizing relationships with
  | nil => simp [insertNulls]
  | cons first names ih =>
    have hrest := ih (Members.sorted_insertNew h first (linkageValue .null))
    rw [Members.get?_insertNew h, Option.or_assoc] at hrest
    refine hrest.trans (congrArg _ ?_)
    by_cases heq : first = name
    · simp [heq]
    · simp [heq, Ne.symm heq]

variable (record : Record)

theorem mem_unsetNames {name : String} (h : name ∈ unsetNames record) :
    ∃ r, r.source = record.kind ∧ r.name = name ∧ r.cardinality = .toOne ∧
      record.targetIds r = [] := by
  obtain ⟨r, hr, rfl⟩ := List.mem_map.mp h
  obtain ⟨hmem, hunset⟩ := List.mem_filter.mp hr
  obtain ⟨hone, hempty⟩ := decide_eq_true_iff.mp hunset
  refine ⟨r, (r.mem_relationships_iff record.kind).mp hmem, rfl, hone, ?_⟩
  rw [Record.targetIds, List.isEmpty_iff.mp hempty, List.map_nil]

theorem name_mem_unsetNames_iff {r : Relationship} (hr : r.source = record.kind) :
    r.name ∈ unsetNames record ↔ r.cardinality = .toOne ∧ record.targetIds r = [] := by
  constructor
  · intro h
    obtain ⟨other, hother, hname, hone, hempty⟩ := mem_unsetNames record h
    obtain rfl := Relationship.name_injective (hother.trans hr.symm) hname
    exact ⟨hone, hempty⟩
  · rintro ⟨hone, hempty⟩
    have hunset : record.isUnset r = true := by
      simpa [Record.isUnset, Record.targetIds] using hempty
    exact List.mem_map_of_mem (List.mem_filter.mpr
      ⟨(r.mem_relationships_iff record.kind).mpr hr, by simp [hone, hunset]⟩)

theorem linkage?_replacing {r : Relationship} (hr : r.source = record.kind) :
    linkage? .replacing record r = (linkage? .full record r).or
      (if r.name ∈ unsetNames record then some (linkageValue .null) else none) := by
  unfold linkage?
  cases hcardinality : r.cardinality with
  | toOne =>
    cases hids : record.targetIds r with
    | nil => simp [name_mem_unsetNames_iff record hr, hcardinality, hids]
    | cons id? rest =>
      have hset : r.name ∉ unsetNames record := by
        simp [name_mem_unsetNames_iff record hr, hids]
      cases id? <;> simp [hset]
  | toMany => simp

theorem relationshipMembers_replacing : relationshipMembers .replacing record =
    insertNulls (unsetNames record) (relationshipMembers .full record) := by
  have hfull := sorted_relationshipMembers .full record
  apply (sorted_relationshipMembers .replacing record).ext (sorted_insertNulls hfull _)
  intro name
  rw [get?_insertNulls hfull]
  by_cases hdeclared : ∃ r : Relationship, r.source = record.kind ∧ r.name = name
  · obtain ⟨r, hr, rfl⟩ := hdeclared
    rw [get?_relationshipMembers .replacing record hr, get?_relationshipMembers .full record hr,
      linkage?_replacing record hr]
  · have hnone : ∀ form, Members.get? (relationshipMembers form record) name = none := by
      intro form
      rw [Members.get?_eq_none_iff]
      intro hmem
      obtain ⟨m, hm, rfl⟩ := List.mem_map.mp hmem
      obtain ⟨r, hr, hname, _⟩ := exists_of_mem_relationshipMembers form record hm
      exact hdeclared ⟨r, hr, hname.symm⟩
    have hset : name ∉ unsetNames record := by
      intro hmem
      obtain ⟨r, hr, hname, _⟩ := mem_unsetNames record hmem
      exact hdeclared ⟨r, hr, hname⟩
    rw [hnone, hnone, if_neg hset]
    rfl

/-- The member for relationships is put in its place if the resource has none. -/
theorem clearIn_eq (names : List String) (attributes type : Value)
    (relationships : Members Value) :
    clearIn names ([("attributes", attributes)] ++ idMembers record ++
        optionalObject "relationships" relationships ++ [("type", type)]) =
      [("attributes", attributes)] ++ idMembers record ++
        [("relationships", .object (insertNulls names relationships))] ++ [("type", type)] := by
  unfold idMembers
  cases record.id with
  | none => cases relationships <;> rfl
  | some id => cases relationships <;> rfl

theorem clearIn_resourceMembers (hset : unsetNames record ≠ []) :
    clearIn (unsetNames record) (resourceMembers .full record) =
      resourceMembers .replacing record := by
  have hattributes : attributeMembers .full record = attributeMembers .replacing record := rfl
  have hsome : insertNulls (unsetNames record) (relationshipMembers .full record) ≠ [] := by
    intro hnil
    obtain ⟨name, hname⟩ := List.exists_mem_of_ne_nil _ hset
    have hget := get?_insertNulls (sorted_relationshipMembers .full record)
      (unsetNames record) name
    rw [hnil, if_pos hname] at hget
    simp at hget
  rw [resourceMembers, clearIn_eq, resourceMembers, relationshipMembers_replacing, hattributes]
  cases hmembers : insertNulls (unsetNames record) (relationshipMembers .full record) with
  | nil => exact absurd hmembers hsome
  | cons m rest => rfl

/-- The document that an update sends is the replacing one. -/
theorem replacement_eq : replacement record = ofRecord .replacing record := by
  unfold replacement clear
  by_cases hset : unsetNames record = []
  · have hrelationships := relationshipMembers_replacing record
    rw [hset] at hrelationships ⊢
    unfold ofRecord resourceMembers
    rw [hrelationships]
    rfl
  · rw [if_neg (by simpa using hset), ofRecord, ofRecord, ← clearIn_resourceMembers record hset]
    rfl

end Document

end ResearchRecords
