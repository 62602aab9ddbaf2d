import ResearchRecords.Record.Basic
import Mathlib.Data.List.Nodup
import Mathlib.Data.List.TakeWhile

/-!
Linking takes the targets that a relationship can hold, up to the first of another kind. It changes
the targets of one relationship and nothing else, and these are then a function of the targets held
before and of those added. Targets of the right kind are always linked.
-/
namespace ResearchRecords

namespace Relationship

/-- As many of the targets as the relationship can hold. -/
def limit (r : Relationship) (targets : List α) : List α :=
  match r.cardinality with
  | .toOne => targets.take 1
  | .toMany => targets

/-- The targets after linking: one target is replaced and a list is extended. -/
def joined (r : Relationship) (held added : List Record) : List Record :=
  match r.cardinality, added with
  | .toOne, [] => held
  | .toOne, target :: _ => [target]
  | .toMany, added => held ++ added

/-- The targets before the first of another kind. -/
def accepted (r : Relationship) (targets : List Record) : List Record :=
  targets.takeWhile fun target => target.kind = r.target

/-- The mismatch at the first target of another kind. -/
def mismatch? (r : Relationship) (targets : List Record) : Option KindMismatch :=
  (targets.find? fun target => target.kind ≠ r.target).map fun target => ⟨r.target, target.kind⟩

theorem limit_of_toOne {r : Relationship} (h : r.cardinality = .toOne) (targets : List α) :
    r.limit targets = targets.take 1 := by
  rw [limit, h]

theorem limit_of_toMany {r : Relationship} (h : r.cardinality = .toMany) (targets : List α) :
    r.limit targets = targets := by
  rw [limit, h]

@[simp] theorem limit_nil (r : Relationship) : r.limit ([] : List α) = [] := by
  unfold limit
  cases r.cardinality <;> rfl

theorem map_limit (r : Relationship) (f : α → β) (targets : List α) :
    (r.limit targets).map f = r.limit (targets.map f) := by
  unfold limit
  cases r.cardinality with
  | toOne => exact List.map_take
  | toMany => rfl

/-- A relationship holds all targets if there are no more than its declaration allows. -/
theorem limit_eq_self {r : Relationship} {targets : List α}
    (h : r.cardinality = .toOne → targets.length ≤ 1) : r.limit targets = targets := by
  cases hcardinality : r.cardinality with
  | toOne =>
    rw [limit_of_toOne hcardinality]
    exact List.take_of_length_le (h hcardinality)
  | toMany => exact limit_of_toMany hcardinality targets

theorem mem_of_mem_limit {α : Type} {r : Relationship} {targets : List α} {a : α}
    (h : a ∈ r.limit targets) : a ∈ targets := by
  cases hcardinality : r.cardinality with
  | toOne =>
    rw [limit_of_toOne hcardinality] at h
    exact List.mem_of_mem_take h
  | toMany => rwa [limit_of_toMany hcardinality] at h

theorem limit_eq_nil_iff {α : Type} (r : Relationship) (targets : List α) :
    r.limit targets = [] ↔ targets = [] := by
  cases hcardinality : r.cardinality with
  | toOne => simp [limit_of_toOne hcardinality]
  | toMany => rw [limit_of_toMany hcardinality]

theorem length_limit_le {α : Type} {r : Relationship} (h : r.cardinality = .toOne)
    (targets : List α) : (r.limit targets).length ≤ 1 := by
  rw [limit_of_toOne h]
  exact List.length_take_le ..

theorem joined_of_toMany {r : Relationship} (h : r.cardinality = .toMany)
    (held added : List Record) : r.joined held added = held ++ added := by
  unfold joined
  rw [h]

@[simp] theorem joined_nil (r : Relationship) (held : List Record) : r.joined held [] = held := by
  unfold joined
  cases r.cardinality with
  | toOne => rfl
  | toMany => exact List.append_nil held

theorem joined_cons_of_toOne {r : Relationship} (h : r.cardinality = .toOne)
    (held : List Record) (target : Record) (rest : List Record) :
    r.joined held (target :: rest) = [target] := by
  unfold joined
  rw [h]

theorem joined_limit (r : Relationship) (held added : List Record) :
    r.joined held (r.limit added) = r.joined held added := by
  cases hcardinality : r.cardinality with
  | toOne =>
    cases added with
    | nil => rw [limit_nil]
    | cons target rest =>
      rw [limit_of_toOne hcardinality, List.take_succ_cons, joined_cons_of_toOne hcardinality,
        joined_cons_of_toOne hcardinality]
  | toMany => rw [limit_of_toMany hcardinality]

theorem nil_joined (r : Relationship) (added : List Record) :
    r.joined [] added = r.limit added := by
  unfold joined limit
  cases r.cardinality with
  | toOne => cases added <;> rfl
  | toMany => rfl

theorem mem_of_mem_joined {r : Relationship} {held added : List Record} {target : Record}
    (h : target ∈ r.joined held added) : target ∈ held ∨ target ∈ added := by
  unfold joined at h
  split at h
  · exact .inl h
  · obtain rfl := List.mem_singleton.mp h
    exact .inr (List.mem_cons_self ..)
  · exact List.mem_append.mp h

theorem length_joined_le {r : Relationship} (h : r.cardinality = .toOne) {held : List Record}
    (hheld : held.length ≤ 1) (added : List Record) : (r.joined held added).length ≤ 1 := by
  unfold joined
  rw [h]
  cases added with
  | nil => exact hheld
  | cons target rest => exact Nat.le_refl 1

@[simp] theorem accepted_nil (r : Relationship) : r.accepted [] = [] := rfl

@[simp] theorem mismatch?_nil (r : Relationship) : r.mismatch? [] = none := rfl

section
variable {r : Relationship} {target : Record}

theorem accepted_cons (h : target.kind = r.target) (rest : List Record) :
    r.accepted (target :: rest) = target :: r.accepted rest :=
  List.takeWhile_cons_of_pos (decide_eq_true h)

theorem accepted_cons_of_ne (h : target.kind ≠ r.target) (rest : List Record) :
    r.accepted (target :: rest) = [] :=
  List.takeWhile_cons_of_neg (by simpa using h)

theorem mismatch?_cons (h : target.kind = r.target) (rest : List Record) :
    r.mismatch? (target :: rest) = r.mismatch? rest := by
  rw [mismatch?, List.find?_cons_of_neg (by simpa using h), mismatch?]

theorem mismatch?_cons_of_ne (h : target.kind ≠ r.target) (rest : List Record) :
    r.mismatch? (target :: rest) = some ⟨r.target, target.kind⟩ := by
  rw [mismatch?, List.find?_cons_of_pos (by simpa using h), Option.map_some]

end

theorem accepted_eq_self {r : Relationship} {targets : List Record}
    (h : ∀ target ∈ targets, target.kind = r.target) : r.accepted targets = targets :=
  List.takeWhile_eq_self_iff.mpr fun target htarget => decide_eq_true (h target htarget)

theorem mismatch?_eq_none_iff (r : Relationship) (targets : List Record) :
    r.mismatch? targets = none ↔ ∀ target ∈ targets, target.kind = r.target := by
  rw [mismatch?, Option.map_eq_none_iff, List.find?_eq_none]
  simp

theorem name_injective {r s : Relationship} (hsource : r.source = s.source)
    (hname : r.name = s.name) : r = s := by
  have h := relationship?_name r
  rw [hsource, hname, relationship?_name] at h
  exact (Option.some.inj h).symm

/-- What is found for a name is the declared relationship of that name. -/
theorem eq_of_relationship? {kind : Kind} {name : String} {r : Relationship}
    (h : kind.relationship? name = some r) : r.source = kind ∧ r.name = name := by
  constructor
  · exact (mem_relationships_iff r kind).mp (List.mem_of_find?_eq_some h)
  · simpa using List.find?_some h

end Relationship

theorem Kind.nodup_relationshipNames (kind : Kind) :
    (kind.relationships.map Relationship.name).Nodup := by
  cases kind <;> decide

theorem Kind.nodup_relationships (kind : Kind) : kind.relationships.Nodup :=
  List.Nodup.of_map Relationship.name kind.nodup_relationshipNames

namespace Record

variable (record : Record) (r : Relationship)

@[simp] theorem setTargets_kind (targets : List Record) :
    (record.setTargets r targets).kind = record.kind := rfl

theorem setTargets_targets (targets : List Record) (s : Relationship) :
    (record.setTargets r targets).targets s = if s = r then targets else record.targets s := rfl

@[simp] theorem setTargets_targets_self (targets : List Record) :
    (record.setTargets r targets).targets r = targets := if_pos rfl

@[simp] theorem setTargets_self : record.setTargets r (record.targets r) = record := by
  obtain ⟨kind, id, attributes, targets⟩ := record
  simp only [setTargets, Record.mk.injEq, heq_eq_eq, true_and]
  funext s
  by_cases h : s = r
  · rw [if_pos h, h]
  · rw [if_neg h]

@[simp] theorem setTargets_setTargets (held targets : List Record) :
    (record.setTargets r held).setTargets r targets = record.setTargets r targets := by
  simp only [setTargets, Record.mk.injEq, heq_eq_eq, true_and]
  funext s
  by_cases h : s = r
  · rw [if_pos h, if_pos h]
  · rw [if_neg h, if_neg h, if_neg h]

theorem ofKind_eq {kind : Kind} {target : Record} (h : target.kind = kind) :
    target.ofKind kind = .ok target := if_pos h

theorem ofKind_of_ne {kind : Kind} {target : Record} (h : target.kind ≠ kind) :
    target.ofKind kind = .error ⟨kind, target.kind⟩ := if_neg h

/-- A list is extended by the targets before the first of another kind. -/
theorem append_eq (targets : List Record) : record.append r targets =
    (record.setTargets r (record.targets r ++ r.accepted targets), r.mismatch? targets) := by
  induction targets generalizing record with
  | nil =>
    rw [Relationship.accepted_nil, List.append_nil, setTargets_self]
    rfl
  | cons target rest ih =>
    rw [append]
    by_cases h : target.kind = r.target
    · rw [ofKind_eq h, Relationship.accepted_cons h, Relationship.mismatch?_cons h]
      simp only
      rw [ih, setTargets_targets_self, setTargets_setTargets, List.append_assoc]
      rfl
    · rw [ofKind_of_ne h, Relationship.accepted_cons_of_ne h, Relationship.mismatch?_cons_of_ne h,
        List.append_nil, setTargets_self]

theorem link_of_toMany (h : r.cardinality = .toMany) (targets : List Record) :
    record.link r targets =
      (record.setTargets r (record.targets r ++ r.accepted targets), r.mismatch? targets) := by
  unfold link
  rw [h]
  exact append_eq record r targets

theorem link_nil (h : r.cardinality = .toOne) : record.link r [] = (record, none) := by
  unfold link
  rw [h]

theorem link_cons (h : r.cardinality = .toOne) {first : Record} (hkind : first.kind = r.target)
    (rest : List Record) :
    record.link r (first :: rest) = (record.setTargets r [first], none) := by
  unfold link
  rw [h]
  dsimp only
  rw [ofKind_eq hkind]

theorem link_cons_of_ne (h : r.cardinality = .toOne) {first : Record}
    (hkind : first.kind ≠ r.target) (rest : List Record) :
    record.link r (first :: rest) = (record, some ⟨r.target, first.kind⟩) := by
  unfold link
  rw [h]
  dsimp only
  rw [ofKind_of_ne hkind]

/-- Of the targets that the relationship can hold, those before the first of another kind are
linked, and nothing else changes. -/
theorem link_eq_accepted (targets : List Record) : record.link r targets =
    (record.setTargets r (r.joined (record.targets r) (r.accepted (r.limit targets))),
      r.mismatch? (r.limit targets)) := by
  cases hcardinality : r.cardinality with
  | toOne =>
    cases targets with
    | nil => simp [link_nil record r hcardinality]
    | cons first rest =>
      rw [Relationship.limit_of_toOne hcardinality, List.take_succ_cons, List.take_zero]
      by_cases h : first.kind = r.target
      · rw [link_cons record r hcardinality h, Relationship.accepted_cons h,
          Relationship.mismatch?_cons h, Relationship.joined_cons_of_toOne hcardinality,
          Relationship.mismatch?_nil]
      · rw [link_cons_of_ne record r hcardinality h, Relationship.accepted_cons_of_ne h,
          Relationship.mismatch?_cons_of_ne h, Relationship.joined_nil, setTargets_self]
  | toMany =>
    rw [link_of_toMany record r hcardinality, Relationship.limit_of_toMany hcardinality,
      Relationship.joined_of_toMany hcardinality]

/-- Targets of the right kind are linked, and nothing else changes. -/
theorem link_eq (targets : List Record) (h : ∀ target ∈ targets, target.kind = r.target) :
    record.link r targets =
      (record.setTargets r (r.joined (record.targets r) targets), none) := by
  have hlimit : ∀ target ∈ r.limit targets, target.kind = r.target :=
    fun target htarget => h target (Relationship.mem_of_mem_limit htarget)
  rw [link_eq_accepted, Relationship.accepted_eq_self hlimit,
    (r.mismatch?_eq_none_iff _).mpr hlimit, Relationship.joined_limit]

theorem link_kind (targets : List Record) : (record.link r targets).1.kind = record.kind := by
  rw [link_eq_accepted, setTargets_kind]

theorem wellFormed_of_targets_eq_nil {record : Record} (h : ∀ r, record.targets r = []) :
    record.WellFormed := by
  refine .intro record (fun r _ => h r) ?_ ?_ ?_
  · intro r _
    rw [h r]
    exact Nat.zero_le 1
  · intro r target htarget
    simp [h r] at htarget
  · intro r target htarget
    simp [h r] at htarget

theorem WellFormed.withId {record : Record} (h : record.WellFormed) (id : Option String) :
    (record.withId id).WellFormed := by
  obtain ⟨_, foreign, single, kinds, nested⟩ := h
  exact .intro _ foreign single kinds nested

/-- Targets that keep the declaration of their relationship can be set. -/
theorem WellFormed.setTargets {record : Record} (h : record.WellFormed) {r : Relationship}
    (hr : r.source = record.kind) {targets : List Record}
    (hsingle : r.cardinality = .toOne → targets.length ≤ 1)
    (htargets : ∀ target ∈ targets, target.kind = r.target ∧ target.WellFormed) :
    (record.setTargets r targets).WellFormed := by
  obtain ⟨_, foreign, single, kinds, nested⟩ := h
  refine .intro _ ?_ ?_ ?_ ?_
  · intro s hs
    have hne : s ≠ r := fun heq => hs (heq ▸ hr)
    rw [setTargets_targets, if_neg hne]
    exact foreign s hs
  · intro s hs
    rw [setTargets_targets]
    split
    · next heq => exact hsingle (heq ▸ hs)
    · exact single s hs
  · intro s target htarget
    rw [setTargets_targets] at htarget
    split at htarget
    · next heq => exact heq ▸ (htargets target htarget).1
    · exact kinds s target htarget
  · intro s target htarget
    rw [setTargets_targets] at htarget
    split at htarget
    · exact (htargets target htarget).2
    · exact nested s target htarget

end Record

end ResearchRecords
