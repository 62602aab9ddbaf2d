import ResearchRecords.Proofs.Json.Members

/-!
Canonical forms. A value whose objects are ordered already is its own canonical form; in any other,
what is found under a name is the canonical form of what was found before. Values without repeated
names are those that a reader of named fields can read.
-/
namespace ResearchRecords.Json.Value

/-- Values whose objects are strictly sorted by name, at every depth. -/
inductive Ordered : Value → Prop
  | null : Ordered .null
  | bool (b : Bool) : Ordered (.bool b)
  | number (n : Number) : Ordered (.number n)
  | string (s : String) : Ordered (.string s)
  | array (items : List Value) (h : ∀ v ∈ items, Ordered v) : Ordered (.array items)
  | object (members : Members Value) (sorted : Members.Sorted members)
    (h : ∀ m ∈ members, Ordered m.2) : Ordered (.object members)

/-- Values whose objects have no name twice, at every depth. -/
inductive Distinct : Value → Prop
  | null : Distinct .null
  | bool (b : Bool) : Distinct (.bool b)
  | number (n : Number) : Distinct (.number n)
  | string (s : String) : Distinct (.string s)
  | array (items : List Value) (h : ∀ v ∈ items, Distinct v) : Distinct (.array items)
  | object (members : Members Value) (nodup : (Members.names members).Nodup)
    (h : ∀ m ∈ members, Distinct m.2) : Distinct (.object members)

@[simp] theorem distinct_null : Distinct .null := .null

@[simp] theorem distinct_string (s : String) : Distinct (.string s) := .string s

@[simp] theorem distinct_array_iff (items : List Value) :
    Distinct (.array items) ↔ ∀ v ∈ items, Distinct v := by
  constructor
  · rintro ⟨⟩
    assumption
  · exact .array items

@[simp] theorem distinct_object_iff (members : Members Value) :
    Distinct (.object members) ↔
      (Members.names members).Nodup ∧ ∀ m ∈ members, Distinct m.2 := by
  constructor
  · rintro ⟨⟩
    exact ⟨by assumption, by assumption⟩
  · exact fun h => .object members h.1 h.2

theorem Ordered.distinct {v : Value} (h : v.Ordered) : v.Distinct := by
  induction h with
  | null => exact .null
  | bool b => exact .bool b
  | number n => exact .number n
  | string s => exact .string s
  | array items _ ih => exact .array items ih
  | object members sorted _ ih => exact .object members sorted.nodup_names ih

theorem canonicalItems_eq (items : List Value) : canonicalItems items = items.map canonical := by
  induction items with
  | nil => rfl
  | cons item items ih => rw [canonicalItems, ih, List.map_cons]

theorem canonicalMembers_eq (members : Members Value) :
    canonicalMembers members = members.map fun m => (m.1, m.2.canonical) := by
  induction members with
  | nil => rfl
  | cons m members ih => rw [canonicalMembers, ih, List.map_cons]

theorem canonical_array (items : List Value) :
    (Value.array items).canonical = .array (items.map canonical) := by
  rw [canonical, canonicalItems_eq]

theorem canonical_object (members : Members Value) :
    (Value.object members).canonical =
      .object (Members.ordered (members.map fun m => (m.1, m.2.canonical))) := by
  rw [canonical, canonicalMembers_eq]

/-- The members of an object in canonical form. -/
def canonicalObject (members : Members Value) : Members Value :=
  Members.ordered (members.map fun m => (m.1, m.2.canonical))

@[simp] theorem get?_canonicalObject (members : Members Value) (name : String) :
    Members.get? (canonicalObject members) name = (Members.get? members name).map canonical := by
  rw [canonicalObject, Members.get?_ordered, Members.get?_map]

theorem Ordered.canonical_eq {v : Value} (h : v.Ordered) : v.canonical = v := by
  induction h with
  | null => rfl
  | bool b => rfl
  | number n => rfl
  | string s => rfl
  | array items _ ih =>
    have hitems : items.map canonical = items := (List.map_congr_left ih).trans (List.map_id items)
    rw [canonical_array, hitems]
  | object members sorted _ ih =>
    have hmember : ∀ m ∈ members, (m.1, m.2.canonical) = id m := fun m hm => by
      rw [ih m hm]
      rfl
    have hmembers : (members.map fun m => (m.1, m.2.canonical)) = members :=
      (List.map_congr_left hmember).trans (List.map_id members)
    rw [canonical_object, hmembers, sorted.ordered_eq]

/-- The members of a record with these fields, which is an object or the list of its values. -/
def members (order : List String) : Value → Members Value
  | .object members => members
  | .array items => order.zip items
  | _ => []

theorem get?_members_canonical (order : List String) (v : Value) (name : String) :
    Members.get? (v.canonical.members order) name =
      (Members.get? (v.members order) name).map canonical := by
  cases v with
  | object ms =>
    rw [canonical_object]
    exact get?_canonicalObject ms name
  | array items =>
    rw [canonical_array]
    show Members.get? (order.zip (items.map canonical)) name = _
    rw [List.zip_map_right, ← Members.get?_map]
    rfl
  | _ => rfl

theorem sorted_members_canonical (v : Value) : Members.Sorted (v.canonical.members []) := by
  cases v with
  | object ms =>
    rw [canonical_object]
    exact Members.sorted_ordered _
  | array items =>
    rw [canonical_array]
    exact Members.sorted_nil
  | _ => exact Members.sorted_nil

end ResearchRecords.Json.Value
