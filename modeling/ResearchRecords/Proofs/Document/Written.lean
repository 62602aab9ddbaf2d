import ResearchRecords.Document.Encode
import ResearchRecords.Proofs.Document.Content
import ResearchRecords.Proofs.Json.Written
import ResearchRecords.Proofs.Record.Attributes
import ResearchRecords.Proofs.Record.Linking

/-!
Documents as they are written. The document of a record is an ordered value without numbers, so its
text parses to the document itself; and in it every attribute, and the linkage of every declared
relationship, is found under its name.
-/
namespace ResearchRecords.Document

open Json (Value Members)

variable (form : Form) (record : Record)

/-- A relationship is found under its name, if it has a value. -/
theorem get?_filterMap_relationships {rs : List Relationship}
    (hnodup : (rs.map Relationship.name).Nodup) (value? : Relationship → Option Value)
    {r : Relationship} (hr : r ∈ rs) :
    Members.get? (rs.filterMap fun s => (value? s).map fun value => (s.name, value)) r.name =
      value? r := by
  have hnames : ∀ {rs : List Relationship} {name : String}, name ∉ rs.map Relationship.name →
      Members.get? (rs.filterMap fun s => (value? s).map fun value => (s.name, value)) name =
        none := by
    intro rs name hname
    rw [Members.get?_eq_none_iff]
    intro hmem
    obtain ⟨m, hm, rfl⟩ := List.mem_map.mp hmem
    obtain ⟨s, hs, heq⟩ := List.mem_filterMap.mp hm
    obtain ⟨value, _, rfl⟩ := Option.map_eq_some_iff.mp heq
    exact hname (List.mem_map.mpr ⟨s, hs, rfl⟩)
  induction rs with
  | nil => simp at hr
  | cons s rest ih =>
    obtain ⟨hnew, hrest⟩ := List.nodup_cons.mp hnodup
    rw [List.filterMap_cons]
    rcases List.mem_cons.mp hr with rfl | hr
    · cases hvalue : value? r with
      | none => exact hnames hnew
      | some value =>
        simp only [Option.map_some]
        rw [Members.get?_cons, hnames hnew, if_pos rfl, Option.none_or]
    · have hne : s.name ≠ r.name := fun h => hnew (h ▸ List.mem_map.mpr ⟨r, hr, rfl⟩)
      cases hvalue : value? s with
      | none => exact ih hrest hr
      | some value =>
        simp only [Option.map_some]
        rw [Members.get?_cons, if_neg hne, Option.or_none]
        exact ih hrest hr

theorem get?_relationshipMembers {r : Relationship} (hr : r.source = record.kind) :
    Members.get? (relationshipMembers form record) r.name = linkage? form record r := by
  rw [relationshipMembers, Members.get?_ordered]
  exact get?_filterMap_relationships record.kind.nodup_relationshipNames _
    ((r.mem_relationships_iff record.kind).mpr hr)

/-- Every member is the linkage of a declared relationship. -/
theorem exists_of_mem_relationshipMembers {m : String × Value}
    (h : m ∈ relationshipMembers form record) :
    ∃ r, r.source = record.kind ∧ m.1 = r.name ∧ linkage? form record r = some m.2 := by
  obtain ⟨r, hr, heq⟩ := List.mem_filterMap.mp (Members.mem_ordered h)
  obtain ⟨value, hvalue, rfl⟩ := Option.map_eq_some_iff.mp heq
  exact ⟨r, (r.mem_relationships_iff record.kind).mp hr, rfl, hvalue⟩

/-- Linkage is null, an identifier, or a list of identifiers. -/
theorem linkage?_cases {r : Relationship} {value : Value}
    (h : linkage? form record r = some value) :
    value = linkageValue .null ∨ (∃ id, value = linkageValue (identifierValue r.target id)) ∨
      ∃ ids : List String, value = linkageValue (.array (ids.map (identifierValue r.target))) := by
  unfold linkage? at h
  split at h
  · split at h
    · exact .inl (Option.some.inj h).symm
    · simp at h
  · simp at h
  · exact .inr (.inl ⟨_, (Option.some.inj h).symm⟩)
  · exact .inr (.inr ⟨_, (Option.some.inj h).symm⟩)

theorem exists_data_of_mem_relationshipMembers {m : String × Value}
    (h : m ∈ relationshipMembers form record) : ∃ data, m.2 = linkageValue data := by
  obtain ⟨r, _, _, hvalue⟩ := exists_of_mem_relationshipMembers form record h
  rcases linkage?_cases form record hvalue with h | ⟨id, h⟩ | ⟨ids, h⟩
  · exact ⟨_, h⟩
  · exact ⟨_, h⟩
  · exact ⟨_, h⟩

theorem sorted_attributeMembers : Members.Sorted (attributeMembers form record) := by
  unfold attributeMembers
  split
  · exact (sorted_write record.kind record.attributes).filter _
  · exact sorted_write record.kind record.attributes

theorem sorted_relationshipMembers : Members.Sorted (relationshipMembers form record) :=
  Members.sorted_ordered _

theorem names_resourceMembers : (Members.names (resourceMembers form record)).Sublist
    ["attributes", "id", "relationships", "type"] := by
  unfold resourceMembers idMembers
  cases record.id with
  | none =>
    cases relationshipMembers form record with
    | nil => exact (show List.Sublist ["attributes", "type"] _ by decide)
    | cons m rest => exact (show List.Sublist ["attributes", "relationships", "type"] _ by decide)
  | some id =>
    cases relationshipMembers form record with
    | nil => exact (show List.Sublist ["attributes", "id", "type"] _ by decide)
    | cons m rest =>
      exact (show List.Sublist ["attributes", "id", "relationships", "type"] _ by decide)

theorem sorted_resourceMembers : Members.Sorted (resourceMembers form record) := by
  have hsorted : ["attributes", "id", "relationships", "type"].Pairwise (· < ·) := by decide
  exact List.pairwise_map.mp (hsorted.sublist (names_resourceMembers form record))

theorem mem_optionalObject {name : String} {members : Members Value} {m : String × Value}
    (h : m ∈ optionalObject name members) : m = (name, .object members) := by
  cases members with
  | nil => simp [optionalObject] at h
  | cons first rest => simpa [optionalObject] using h

/-- What a member of the resource holds. -/
theorem mem_resourceMembers {m : String × Value} (h : m ∈ resourceMembers form record) :
    m = ("attributes", .object (attributeMembers form record)) ∨
      (∃ id, record.id = some id ∧ m = ("id", .string id)) ∨
      m = ("relationships", .object (relationshipMembers form record)) ∨
      m = ("type", .string record.kind.name) := by
  simp only [resourceMembers, List.mem_append, List.mem_singleton] at h
  rcases h with ((h | h) | h) | h
  · exact .inl h
  · unfold idMembers at h
    cases hid : record.id with
    | none => simp [hid] at h
    | some id => exact .inr (.inl ⟨id, rfl, by simpa [hid] using h⟩)
  · exact .inr (.inr (.inl (mem_optionalObject h)))
  · exact .inr (.inr (.inr h))

theorem get?_resourceMembers :
    Members.get? (resourceMembers form record) "attributes" =
        some (.object (attributeMembers form record)) ∧
      Members.get? (resourceMembers form record) "id" = record.id.map Value.string ∧
      Members.get? (resourceMembers form record) "relationships" =
        (if relationshipMembers form record = [] then none
          else some (.object (relationshipMembers form record))) ∧
      Members.get? (resourceMembers form record) "type" = some (.string record.kind.name) := by
  unfold resourceMembers idMembers
  cases record.id with
  | none =>
    cases relationshipMembers form record with
    | nil => simp [optionalObject, Members.get?_cons]
    | cons m rest => simp [optionalObject, Members.get?_cons]
  | some id =>
    cases relationshipMembers form record with
    | nil => simp [optionalObject, Members.get?_cons]
    | cons m rest => simp [optionalObject, Members.get?_cons]

/-- Values that are read back from their text as they are. -/
structure Durable (room : Nat) (v : Value) : Prop where
  plain : v.Plain room
  ordered : v.Ordered

namespace Durable

theorem null (room : Nat) : Durable room .null := ⟨.null room, .null⟩

theorem bool (room : Nat) (b : Bool) : Durable room (.bool b) := ⟨.bool room b, .bool b⟩

theorem string (room : Nat) (s : String) : Durable room (.string s) := ⟨.string room s, .string s⟩

theorem array {room : Nat} {items : List Value} (h : ∀ v ∈ items, Durable room v) :
    Durable (room + 1) (.array items) :=
  ⟨.array room items fun v hv => (h v hv).plain, .array items fun v hv => (h v hv).ordered⟩

theorem object {room : Nat} {members : Members Value} (hsorted : Members.Sorted members)
    (h : ∀ m ∈ members, Durable room m.2) : Durable (room + 1) (.object members) :=
  ⟨.object room members fun m hm => (h m hm).plain,
    .object members hsorted fun m hm => (h m hm).ordered⟩

end Durable

theorem durable_identifierValue (room : Nat) (kind : Kind) (id : String) :
    Durable (room + 1) (identifierValue kind id) := by
  apply Durable.object
  · exact List.pairwise_pair.mpr (show "id" < "type" by decide)
  · intro m hm
    simp only [List.mem_cons, List.not_mem_nil, or_false] at hm
    rcases hm with rfl | rfl
    · exact .string room id
    · exact .string room kind.name

theorem durable_linkageValue {room : Nat} {data : Value} (h : Durable room data) :
    Durable (room + 1) (linkageValue data) := by
  apply Durable.object
  · exact List.pairwise_singleton ..
  · intro m hm
    obtain rfl := List.mem_singleton.mp hm
    exact h

theorem durable_linkage? (room : Nat) {r : Relationship} {value : Value}
    (h : linkage? form record r = some value) : Durable (room + 3) value := by
  rcases linkage?_cases form record h with rfl | ⟨id, rfl⟩ | ⟨ids, rfl⟩
  · exact durable_linkageValue (.null _)
  · exact durable_linkageValue (durable_identifierValue _ _ id)
  · refine durable_linkageValue (.array ?_)
    intro v hv
    obtain ⟨id, _, rfl⟩ := List.mem_map.mp hv
    exact durable_identifierValue room _ id

/-- An attribute is written as null, a flag, a string, or a list of strings. -/
theorem write_cases (type : AttributeType) (value : type.Value) :
    type.write value = .null ∨ (∃ b, type.write value = .bool b) ∨
      (∃ s, type.write value = .string s) ∨
      ∃ ss : List String, type.write value = .array (ss.map .string) := by
  cases type with
  | text =>
    cases value with
    | none => exact .inl rfl
    | some s => exact .inr (.inr (.inl ⟨s, rfl⟩))
  | flag =>
    cases value with
    | none => exact .inl rfl
    | some b => exact .inr (.inl ⟨b, rfl⟩)
  | time =>
    cases value with
    | none => exact .inl rfl
    | some t => exact .inr (.inr (.inl ⟨t.text, rfl⟩))
  | term v =>
    cases value with
    | none => exact .inl rfl
    | some t => exact .inr (.inr (.inl ⟨Term.spelling t, rfl⟩))
  | texts => exact .inr (.inr (.inr ⟨value, rfl⟩))
  | terms v =>
    exact .inr (.inr (.inr
      ⟨List.map Term.spelling value, congrArg Value.array List.map_map.symm⟩))

theorem exists_of_mem_write {schema : List Attribute} {row : Row schema} {m : String × Value}
    (h : m ∈ Row.write schema row) :
    ∃ (type : AttributeType) (value : type.Value), m.2 = type.write value := by
  induction schema with
  | nil => simp [Row.write] at h
  | cons a rest ih =>
    rcases List.mem_cons.mp h with rfl | h
    · exact ⟨a.type, row.1, rfl⟩
    · exact ih h

theorem mem_write_of_mem_attributeMembers {m : String × Value}
    (h : m ∈ attributeMembers form record) :
    m ∈ Row.write record.kind.schema record.attributes := by
  unfold attributeMembers at h
  split at h
  · exact List.mem_of_mem_filter h
  · exact h

theorem durable_attribute (room : Nat) {m : String × Value}
    (h : m ∈ attributeMembers form record) : Durable (room + 1) m.2 := by
  obtain ⟨type, value, heq⟩ := exists_of_mem_write (mem_write_of_mem_attributeMembers form record h)
  rw [heq]
  rcases write_cases type value with h | ⟨b, h⟩ | ⟨s, h⟩ | ⟨ss, h⟩
  · exact h ▸ .null _
  · exact h ▸ .bool _ b
  · exact h ▸ .string _ s
  · rw [h]
    refine .array fun v hv => ?_
    obtain ⟨s, _, rfl⟩ := List.mem_map.mp hv
    exact .string room s

theorem durable_resource (room : Nat) :
    Durable (room + 5) (.object (resourceMembers form record)) := by
  refine .object (sorted_resourceMembers form record) fun m hm => ?_
  rcases mem_resourceMembers form record hm with rfl | ⟨id, _, rfl⟩ | rfl | rfl
  · exact .object (sorted_attributeMembers form record)
      fun m hm => durable_attribute form record (room + 2) hm
  · exact .string _ id
  · refine .object (sorted_relationshipMembers form record) fun m hm => ?_
    obtain ⟨r, _, _, hvalue⟩ := exists_of_mem_relationshipMembers form record hm
    exact durable_linkage? form record room hvalue
  · exact .string _ record.kind.name

/-- The document of a record is not nested deeply. -/
theorem durable_ofRecord : Durable Json.Node.maxDepth (ofRecord form record) := by
  refine .object (List.pairwise_singleton ..) fun m hm => ?_
  obtain rfl := List.mem_singleton.mp hm
  exact durable_resource form record 121

/-- The text of a document parses to the document. -/
theorem parse_ofRecord :
    Json.parse (ofRecord form record).toBytes = .ok (ofRecord form record) := by
  have h := durable_ofRecord form record
  rw [Json.parse_toBytes h.plain, h.ordered.canonical_eq]

theorem readWith_value_ofRecord :
    Json.readWith (Json.Node.value Json.Node.maxDepth) (ofRecord form record).toBytes =
      .ok (ofRecord form record) := by
  have h := durable_ofRecord form record
  rw [Json.readWith_toBytes h.plain, Json.Node.value_tree h.plain]

/-- The document has what is written for each declared relationship. -/
theorem relationship?_ofRecord {r : Relationship} (hr : r.source = record.kind) :
    Content.relationship? (Content.primary (ofRecord form record)) r.name =
      linkage? form record r := by
  rw [← get?_relationshipMembers form record hr]
  show Members.get? (((Members.get? (resourceMembers form record) "relationships").getD
    .null).members []) r.name = _
  rw [(get?_resourceMembers form record).2.2.1]
  by_cases hnone : relationshipMembers form record = []
  · rw [if_pos hnone, hnone]
    rfl
  · rw [if_neg hnone]
    rfl

theorem target?_identifierValue (kind : Kind) (id : String) :
    Content.target? (identifierValue kind id) = if id = "" then none else some (kind.name, id) := by
  have hkind : kind.name ≠ "" := by cases kind <;> decide
  have htype : Content.text? [("id", .string id), ("type", .string kind.name)] "type" =
      some kind.name := by
    simp [Content.text?, Members.get?_cons, hkind]
  have hid : Content.text? [("id", .string id), ("type", .string kind.name)] "id" =
      if id = "" then none else some id := by
    simp [Content.text?, Members.get?_cons]
  rw [identifierValue, Content.target?, htype, hid]
  by_cases h : id = ""
  · simp [h]
  · simp [h]

theorem targets_identifiers (kind : Kind) (ids : List String) :
    Content.targets (.array (ids.map (identifierValue kind))) =
      (ids.filter (· ≠ "")).map fun id => (kind.name, id) := by
  rw [Content.targets, List.filterMap_map]
  induction ids with
  | nil => rfl
  | cons id rest ih =>
    rw [List.filterMap_cons, Function.comp_apply, target?_identifierValue, ih]
    by_cases h : id = ""
    · simp [h]
    · simp [h]

/-- The linkage written for a relationship names the targets that have an id that is not empty. -/
theorem targets_linkage? (r : Relationship) :
    Content.targets (((linkage? form record r).map relationshipData).getD .null) =
      ((r.limit (record.targetIds r)).reduceOption.filter (· ≠ "")).map
        fun id => (r.target.name, id) := by
  unfold linkage? Relationship.limit
  cases r.cardinality with
  | toOne =>
    cases record.targetIds r with
    | nil =>
      by_cases h : form = .replacing
      · simp only [if_pos h]
        rfl
      · simp only [if_neg h]
        rfl
    | cons id? rest =>
      cases id? with
      | none => rfl
      | some id => exact targets_identifiers r.target [id]
  | toMany => exact targets_identifiers r.target (record.targetIds r).reduceOption

/-- The update of a record clears a relationship to one target exactly if it has no target. -/
theorem linkage?_eq_null_iff {record : Record} {r : Relationship} (hone : r.cardinality = .toOne)
    (hids : none ∉ record.targetIds r) :
    linkage? .replacing record r = some (linkageValue .null) ↔ record.targets r = [] := by
  unfold linkage?
  rw [hone]
  cases htargets : record.targets r with
  | nil =>
    rw [Record.targetIds, htargets]
    simp
  | cons target rest =>
    rw [Record.targetIds, htargets] at hids ⊢
    cases hid : target.id with
    | none => simp [hid] at hids
    | some id => simp [hid, linkageValue, identifierValue]

end ResearchRecords.Document
