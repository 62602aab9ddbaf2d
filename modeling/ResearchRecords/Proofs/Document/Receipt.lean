import ResearchRecords.Document.Receipt
import ResearchRecords.Proofs.Document.Scannable

/-!
The id in a response. A layout of one optional field reads what is under the name of the field and
passes over all other members, so the id is found wherever it stands in the document.
-/
namespace ResearchRecords.Document

open Json (Value Members Node Layout CanRead)
open Results

section OptionalField

variable {α : Type} (record field : String) (read : Nat → Node → Except Json.Fault α)
  (g : Value → Option α)

/-- The last value under the name of the field counts. -/
def optionalStep (held : Option α) (m : String × Value) : Option α :=
  if m.1 = field then g m.2 else held

theorem foldl_optionalStep (members : Members Value) :
    members.foldl (optionalStep field g) none = (Members.get? members field).bind g := by
  induction members using List.reverseRecOn with
  | nil => rfl
  | append_singleton members m ih =>
    rw [List.foldl_concat, ih, optionalStep, Members.get?_concat]
    split <;> rfl

theorem optionalField_readsBy
    (hg : ∀ room node a?, Node.optional (read room) node = .ok a? → a? = g node.outline)
    (room : Nat) :
    (optionalField record field read).ReadsBy room (optionalStep field g) where
  known := by
    intro known hknown node held a? hread
    obtain rfl := List.mem_singleton.mp hknown
    rw [hg room node a? hread]
    exact (if_pos rfl).symm
  other := by
    intro name v held hname
    exact if_neg fun h => hname (List.mem_singleton.mpr h)

theorem canRead_optionalField_object {members : Members Value}
    (honce : (Members.names members).count field ≤ 1)
    (hread : ∀ v, Members.get? members field = some v →
      CanRead (fun room => Node.optional (read room)) v) :
    CanRead (optionalField record field read).read (.object members) := by
  apply Layout.canRead_object
  · intro name hname
    obtain rfl := List.mem_singleton.mp hname
    exact honce
  · intro known hknown
    obtain rfl := List.mem_singleton.mp hknown
    rfl
  · intro known hknown v hget _
    obtain rfl := List.mem_singleton.mp hknown
    exact hread v hget

/-- A field whose value can be read is read, whatever the other members are. -/
theorem optionalField_read_object
    (hg : ∀ room node a?, Node.optional (read room) node = .ok a? → a? = g node.outline)
    {room : Nat} {node : Node} {members : Members Value}
    (hv : node.value room = .ok (.object members)) (hnodup : (Members.names members).Nodup)
    (hread : ∀ v, Members.get? members field = some v →
      CanRead (fun room => Node.optional (read room)) v) :
    (optionalField record field read).read room node =
      .ok ((Members.get? members field).bind g) := by
  have honce : (Members.names members).count field ≤ 1 := List.nodup_iff_count_le_one.mp hnodup field
  obtain ⟨a?, ha⟩ := canRead_optionalField_object record field read honce hread room node hv
  have hresult := (Layout.ReadsBy.read_eq (optionalField_readsBy record field read g hg) ha).2
  rw [ha, hresult, Node.outline_of_value node hv]
  exact congrArg Except.ok (foldl_optionalStep field g members)

end OptionalField

/-- The id of a resource, if it is a string. -/
def idOf (resource : Value) : Option String :=
  (Members.get? (resource.members ["id"]) "id").bind fun v => textOf (some v)

theorem idLayout_read_eq {room : Nat} {node : Node} {id : Option String}
    (h : idLayout.read room node = .ok id) :
    node.outline.isNull = false ∧ id = idOf node.outline := by
  have hreads := optionalField_readsBy "IdResource" "id" (fun _ => Node.string)
    (fun v => textOf (some v)) fun _ _ _ h => optional_string_eq h
  obtain ⟨haccepts, heq⟩ := Layout.ReadsBy.read_eq hreads h
  constructor
  · rcases haccepts with ⟨members, hobject⟩ | ⟨items, harray, _⟩
    · rw [hobject]
      rfl
    · rw [harray]
      rfl
  · rw [heq]
    exact foldl_optionalStep _ _ _

theorem idLayout_read_object {room : Nat} {node : Node} {members : Members Value}
    (hv : node.value room = .ok (.object members)) (hnodup : (Members.names members).Nodup)
    {id : String} (hid : Members.get? members "id" = some (.string id)) :
    idLayout.read room node = .ok (some id) := by
  have hfield : ∀ v, Members.get? members "id" = some v →
      CanRead (fun _ => Node.optional Node.string) v := by
    intro v hget inner node hvalue
    obtain rfl := Option.some.inj (hid.symm.trans hget)
    exact ⟨some id, exists_optional_string hvalue⟩
  have hread := optionalField_read_object "IdResource" "id" (fun _ => Node.string)
    (fun v => textOf (some v)) (fun _ _ _ h => optional_string_eq h) hv hnodup hfield
  rw [hid] at hread
  exact hread

theorem optional_idLayout_eq (room : Nat) (node : Node) (id? : Option (Option String))
    (h : Node.optional (idLayout.read room) node = .ok id?) :
    id? = if node.outline.isNull then none else some (idOf node.outline) := by
  rcases optional_eq h with ⟨rfl, rfl⟩ | ⟨id, hid, rfl⟩
  · rfl
  · obtain ⟨hnull, rfl⟩ := idLayout_read_eq hid
    rw [if_neg (by simp [hnull])]

theorem assignedId_eq_ok_iff (body : Bytes) (id : String) : assignedId body = .ok id ↔
    ∃ id?, Json.readWith (idDocumentLayout.read Node.maxDepth) body = .ok id? ∧
      id?.join = some id ∧ id ≠ "" := by
  simp only [assignedId, ofJson, bind_eq_ok, mapError_eq_ok]
  constructor
  · rintro ⟨id?, hread, h⟩
    refine ⟨id?, hread, ?_⟩
    cases hjoin : id?.join with
    | none => simp [hjoin] at h
    | some found =>
      rw [hjoin] at h
      by_cases hempty : found = ""
      · simp [hempty] at h
      · simp only [String.isEmpty_iff, hempty, if_false, pure_eq_ok] at h
        exact ⟨congrArg some h, h ▸ hempty⟩
  · rintro ⟨id?, hread, hjoin, hne⟩
    exact ⟨id?, hread, by simp [hjoin, hne]⟩

/-- The id under `data` in a document without repeated names is the one that is assigned. -/
theorem assignedId_eq {body : Bytes} {document members : Members Value}
    (hv : Json.readWith (Node.value Node.maxDepth) body = .ok (.object document))
    (hdistinct : (Value.object document).Distinct)
    (hdata : Members.get? document "data" = some (.object members)) {id : String}
    (hid : Members.get? members "id" = some (.string id)) (hne : id ≠ "") :
    assignedId body = .ok id := by
  obtain ⟨hvalue, hleftover⟩ := (Json.readWith_eq_ok_iff ..).mp hv
  obtain ⟨hnodup, hvalues⟩ := (Value.distinct_object_iff _).mp hdistinct
  have hmembers := ((Value.distinct_object_iff _).mp
    (hvalues _ ((Members.get?_eq_some_iff hnodup _ _).mp hdata))).1
  have hfield : ∀ v, Members.get? document "data" = some v →
      CanRead (fun room => Node.optional (idLayout.read room)) v := by
    intro v hget inner node hnode
    obtain rfl := Option.some.inj (hdata.symm.trans hget)
    have hobject := idLayout_read_object hnode hmembers hid
    cases node with
    | object _ _ => exact ⟨some (some id), (map_eq_ok ..).mpr ⟨_, hobject, rfl⟩⟩
    | _ => simp [Node.value] at hnode
  have hread := optionalField_read_object "IdDocument" "data" idLayout.read
    (fun v => if v.isNull then none else some (idOf v)) optional_idLayout_eq hvalue hnodup hfield
  have hvalueId : idOf (.object members) = some id := by
    show (Members.get? members "id").bind _ = some id
    rw [hid]
    rfl
  rw [hdata] at hread
  have hid? : Json.readWith (idDocumentLayout.read Node.maxDepth) body = .ok (some (some id)) := by
    rw [← hvalueId]
    exact (Json.readWith_eq_ok_iff ..).mpr ⟨hread, hleftover⟩
  exact (assignedId_eq_ok_iff ..).mpr ⟨some (some id), hid?, rfl, hne⟩

end ResearchRecords.Document
