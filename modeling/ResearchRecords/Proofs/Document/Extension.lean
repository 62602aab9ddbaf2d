import ResearchRecords.Proofs.Json.Layout
import ResearchRecords.Record.Relationship

/-!
Documents with further relationships. A newer repository may send relationships that a kind does not
declare, with null, an identifier or a list of identifiers as their data. The rest of the document is
the same, and so is what it shows under every other name.
-/
namespace ResearchRecords.Document

open Json (Value Members Layout)

/-- A value in the place of the one under a name, or of none, which counts as null. -/
inductive Puts (name : String) (allowed : Value → Value → Prop) :
    Members Value → Members Value → Prop
  | inPlace (front back : Members Value) (held value : Value) (h : allowed held value) :
    Puts name allowed (front ++ (name, held) :: back) (front ++ (name, value) :: back)
  | anew (front back : Members Value) (value : Value) (hname : name ∉ Members.names (front ++ back))
    (h : allowed .null value) : Puts name allowed (front ++ back) (front ++ (name, value) :: back)

namespace Puts

variable {name : String} {allowed : Value → Value → Prop} {old new : Members Value}

theorem get?_of_ne (h : Puts name allowed old new) {other : String} (hne : other ≠ name) :
    Members.get? new other = Members.get? old other := by
  cases h with
  | inPlace front back held value => simp [Members.get?_append, Members.get?_cons, hne.symm]
  | anew front back value => simp [Members.get?_append, Members.get?_cons, hne.symm]

theorem once {σ : Type} {layout : Layout σ} (h : Puts name allowed old new)
    (honce : layout.Once old) : layout.Once new := by
  intro other hother
  cases h with
  | inPlace front back held value =>
    have hcount := honce other hother
    simpa [Members.names] using hcount
  | anew front back value hname =>
    by_cases heq : name = other
    · subst heq
      have hnone := List.count_eq_zero.mpr hname
      rw [Members.names, List.map_append, List.count_append] at hnone
      rw [Members.names, List.map_append, List.map_cons, List.count_append, List.count_cons_self]
      omega
    · have hcount := honce other hother
      rw [Members.names, List.map_append, List.count_append] at hcount
      rwa [Members.names, List.map_append, List.map_cons, List.count_append,
        List.count_cons_of_ne heq]

/-- The value is found, and was put over the one found before, unless a later one hides it. -/
theorem get?_cases (h : Puts name allowed old new) :
    Members.get? new name = Members.get? old name ∨
      ∃ value, allowed ((Members.get? old name).getD .null) value := by
  cases h with
  | inPlace front back held value hallowed =>
    rw [Members.get?_append, Members.get?_append, Members.get?_cons, Members.get?_cons]
    cases Members.get? back name with
    | none => exact .inr ⟨value, by simpa using hallowed⟩
    | some later => exact .inl rfl
  | anew front back value hunnamed hallowed =>
    rw [(Members.get?_eq_none_iff ..).mpr hunnamed]
    exact .inr ⟨value, hallowed⟩

/-- Where the name is given once, the value is found, and was put over the one found before. -/
theorem exists_get? {σ : Type} {layout : Layout σ} (h : Puts name allowed old new)
    (honce : layout.Once old) (hname : name ∈ layout.names) :
    ∃ value, Members.get? new name = some value ∧
      allowed ((Members.get? old name).getD .null) value := by
  have hnew := h.once honce
  cases h with
  | inPlace front back held value hallowed =>
    refine ⟨value, hnew.get?_eq_some hname (by simp), ?_⟩
    rwa [honce.get?_eq_some hname (v := held) (by simp)]
  | anew front back value hunnamed hallowed =>
    refine ⟨value, hnew.get?_eq_some hname (by simp), ?_⟩
    rwa [(Members.get?_eq_none_iff ..).mpr hunnamed]

end Puts

/-- An identifier object. -/
def IsIdentifier (v : Value) : Prop :=
  ∃ members, v = .object members ∧ (Members.names members).Nodup ∧
    ∃ type id, type ≠ "" ∧ id ≠ "" ∧ Members.get? members "type" = some (.string type) ∧
      Members.get? members "id" = some (.string id)

/-- A relationship object whose data is null, an identifier or a list of identifiers. -/
def IsRelationship (v : Value) : Prop :=
  ∃ members data, v = .object members ∧ (Members.names members).Nodup ∧
    Members.get? members "data" = some data ∧
    (data = .null ∨ IsIdentifier data ∨
      ∃ items, data = .array items ∧ ∀ item ∈ items, IsIdentifier item)

/-- Further relationships, among those there are, under names that the kind does not declare. -/
inductive Adds (kind : Kind) : Members Value → Members Value → Prop
  | nil : Adds kind [] []
  | keep {old new : Members Value} (m : String × Value) (h : Adds kind old new) :
    Adds kind (m :: old) (m :: new)
  | add {old new : Members Value} (name : String) (relationship : Value)
    (hname : kind.relationship? name = none) (hrelationship : IsRelationship relationship)
    (h : Adds kind old new) : Adds kind old ((name, relationship) :: new)

namespace Adds

variable {kind : Kind} {old new : Members Value}

theorem mem (h : Adds kind old new) {m : String × Value} (hm : m ∈ new) :
    m ∈ old ∨ IsRelationship m.2 := by
  induction h with
  | nil => exact .inl hm
  | keep other _ ih =>
    rcases List.mem_cons.mp hm with rfl | hm
    · exact .inl (List.mem_cons_self ..)
    · exact (ih hm).imp_left (List.mem_cons_of_mem _)
  | add name relationship _ hrelationship _ ih =>
    rcases List.mem_cons.mp hm with rfl | hm
    · exact .inr hrelationship
    · exact ih hm

/-- A declared name shows what it did. -/
theorem get?_of_declared (h : Adds kind old new) {name : String} {r : Relationship}
    (hr : kind.relationship? name = some r) : Members.get? new name = Members.get? old name := by
  induction h with
  | nil => rfl
  | keep m _ ih => rw [Members.get?_cons, Members.get?_cons, ih]
  | add other relationship hother _ _ ih =>
    have hne : other ≠ name := by
      rintro rfl
      cases hr.symm.trans hother
    rw [Members.get?_cons, ih, if_neg hne, Option.or_none]

theorem names_subset (h : Adds kind old new) : Members.names old ⊆ Members.names new := by
  induction h with
  | nil => exact List.Subset.refl _
  | keep m _ ih => exact List.cons_subset_cons m.1 ih
  | add name _ _ _ _ ih => exact List.subset_cons_of_subset name ih

/-- Any name shows what it did, or a relationship that was added. -/
theorem get?_eq_some (h : Adds kind old new) {name : String} {v : Value}
    (hget : Members.get? new name = some v) :
    Members.get? old name = some v ∨ IsRelationship v := by
  induction h with
  | nil => exact .inl hget
  | @keep old new m hadds ih =>
    rw [Members.get?_cons] at hget
    rcases Option.or_eq_some_iff.mp hget with hlater | ⟨hnone, hfirst⟩
    · rcases ih hlater with hold | hrelationship
      · rw [Members.get?_cons, hold]
        exact .inl rfl
      · exact .inr hrelationship
    · -- No later member has the name with the further ones, so none had it without them.
      have hold : Members.get? old name = none := by
        rw [Members.get?_eq_none_iff] at hnone ⊢
        exact fun hmem => hnone (hadds.names_subset hmem)
      rw [Members.get?_cons, hold]
      exact .inl hfirst
  | add other relationship _ hrelationship _ ih =>
    rw [Members.get?_cons] at hget
    rcases Option.or_eq_some_iff.mp hget with hlater | ⟨_, hfirst⟩
    · exact ih hlater
    · split at hfirst
      · exact .inr (Option.some.inj hfirst ▸ hrelationship)
      · cases hfirst

end Adds

/-- Relationships with further ones; there may have been none. -/
def ExtendsRelationships (kind : Kind) (held value : Value) : Prop :=
  ∃ named, value = .object named ∧ Adds kind (held.members []) named

/-- A resource with further relationships. -/
def ExtendsResource (kind : Kind) (held value : Value) : Prop :=
  ∃ old new, held = .object old ∧ value = .object new ∧
    Puts "relationships" (ExtendsRelationships kind) old new

/-- A document with further relationships in its primary resource. -/
def Extends (kind : Kind) (old new : Members Value) : Prop := Puts "data" (ExtendsResource kind) old new

end ResearchRecords.Document
