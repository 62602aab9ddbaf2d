import ResearchRecords.Document.Scan
import ResearchRecords.Proofs.Json.Layout

/-!
The scan of a response, told from the value of its text. Each part of the scan, if it succeeds, is a
function of that value: the last value under each name counts, and a record of named fields may be
an object or a list. Linkage is the same for a value and for its canonical form.
-/
namespace ResearchRecords.Document

open Json (Value Members Node Layout Piece)
open Json.Layout (ReadsBy)
open Results

def textOf : Option Value → Option String
  | some (.string s) => some s
  | _ => none

/-- The value under `data` in a relationship object. -/
def relationshipData (relationship : Value) : Value :=
  (Members.get? (relationship.members ["data"]) "data").getD .null

def Linkage.ofData (relationship : Value) : Linkage :=
  Linkage.ofValue (relationshipData relationship)

def linkagesOf (relationships : Value) : Members Linkage :=
  Members.ordered ((relationships.members []).map fun m => (m.1, Linkage.ofData m.2))

def ScannedResource.ofValue (resource : Value) : ScannedResource :=
  let members := resource.members ["id", "relationships"]
  ⟨textOf (Members.get? members "id"),
    linkagesOf ((Members.get? members "relationships").getD .null)⟩

def Scan.primaryOf (data : Value) : List ScannedResource :=
  match data with
  | .object _ => [.ofValue data]
  | .array items => items.map .ofValue
  | _ => []

def Scan.includedOf (included : Value) : List Identifier :=
  match included with
  | .array items => items.map fun item => .ofMembers (item.members ["type", "id"])
  | _ => []

def Scan.ofValue (document : Value) : Scan :=
  let members := document.members ["data", "included"]
  ⟨primaryOf ((Members.get? members "data").getD .null),
    includedOf ((Members.get? members "included").getD .null)⟩

@[simp] theorem nonEmpty_canonical (v : Value) : nonEmpty v.canonical = nonEmpty v := by
  cases v <;> rfl

@[simp] theorem textOf_canonical (v? : Option Value) :
    textOf (v?.map Value.canonical) = textOf v? := by
  cases v? with
  | none => rfl
  | some v => cases v <;> rfl

theorem Identifier.ofMembers_congr {a b : Members Value}
    (h : ∀ name, Members.get? a name = (Members.get? b name).map Value.canonical) :
    Identifier.ofMembers a = Identifier.ofMembers b := by
  have hfield : ∀ name,
      (Members.get? a name >>= nonEmpty) = (Members.get? b name >>= nonEmpty) := by
    intro name
    rw [h]
    cases Members.get? b name with
    | none => rfl
    | some v => exact nonEmpty_canonical v
  simp only [Identifier.ofMembers, hfield]

theorem Identifier.ofValue?_canonical (v : Value) :
    Identifier.ofValue? v.canonical = Identifier.ofValue? v := by
  cases v with
  | object members =>
    rw [Value.canonical_object, Identifier.ofValue?, Identifier.ofValue?]
    exact congrArg some (Identifier.ofMembers_congr (Value.get?_canonicalObject members))
  | _ => rfl

theorem Linkage.ofValue_canonical (v : Value) :
    Linkage.ofValue v.canonical = Linkage.ofValue v := by
  cases v with
  | object members =>
    rw [Value.canonical_object, Linkage.ofValue, Linkage.ofValue]
    exact congrArg Linkage.one (Identifier.ofMembers_congr (Value.get?_canonicalObject members))
  | array items =>
    rw [Value.canonical_array, Linkage.ofValue, Linkage.ofValue, List.filterMap_map]
    congr 1
    exact List.filterMap_congr fun item _ => Identifier.ofValue?_canonical item
  | _ => rfl

theorem Linkage.ofData_canonical (relationship : Value) :
    Linkage.ofData relationship.canonical = Linkage.ofData relationship := by
  rw [ofData, ofData, relationshipData, relationshipData, Value.get?_members_canonical]
  cases Members.get? (relationship.members ["data"]) "data" with
  | none => rfl
  | some data => exact Linkage.ofValue_canonical data

theorem get?_linkagesOf (relationships : Value) (name : String) :
    Members.get? (linkagesOf relationships) name =
      (Members.get? (relationships.members []) name).map Linkage.ofData := by
  rw [linkagesOf, Members.get?_ordered, Members.get?_map]

theorem linkagesOf_canonical (relationships : Value) :
    linkagesOf relationships.canonical = linkagesOf relationships := by
  apply (Members.sorted_ordered _).ext (Members.sorted_ordered _)
  intro name
  show Members.get? (linkagesOf _) name = Members.get? (linkagesOf _) name
  rw [get?_linkagesOf, get?_linkagesOf, Value.get?_members_canonical, Option.map_map]
  congr 1
  funext v
  exact Linkage.ofData_canonical v

theorem getD_map_canonical (v? : Option Value) :
    (v?.map Value.canonical).getD .null = (v?.getD .null).canonical := by
  cases v? <;> rfl

theorem ScannedResource.ofValue_canonical (v : Value) : ofValue v.canonical = ofValue v := by
  simp only [ofValue, Value.get?_members_canonical, textOf_canonical, getD_map_canonical,
    linkagesOf_canonical]

theorem Scan.primaryOf_canonical (v : Value) : primaryOf v.canonical = primaryOf v := by
  cases v with
  | object members =>
    have hresource := ScannedResource.ofValue_canonical (.object members)
    rw [Value.canonical_object] at hresource ⊢
    exact congrArg (fun resource => [resource]) hresource
  | array items =>
    rw [Value.canonical_array, primaryOf, primaryOf, List.map_map]
    exact List.map_congr_left fun item _ => ScannedResource.ofValue_canonical item
  | _ => rfl

theorem scanText_eq {room : Nat} {node : Node} {text : Option String}
    (h : scanText room node = .ok text) : text = nonEmpty node.outline := by
  simp only [scanText, bind_eq_ok, pure_eq_ok] at h
  obtain ⟨v, hv, rfl⟩ := h
  rw [Node.outline_of_value node hv]

def identifierStep (identifier : Identifier) (m : String × Value) : Identifier :=
  if m.1 = "type" then { identifier with type := nonEmpty m.2 }
  else if m.1 = "id" then { identifier with id := nonEmpty m.2 }
  else identifier

theorem identifierLayout_readsBy (room : Nat) : identifierLayout.ReadsBy room identifierStep where
  known := by
    intro field hfield node record record' hread
    simp only [identifierLayout, List.mem_cons, List.not_mem_nil, or_false] at hfield
    rcases hfield with rfl | rfl
    all_goals
      simp only [bind_eq_ok, pure_eq_ok] at hread
      obtain ⟨text, htext, rfl⟩ := hread
      rw [scanText_eq htext]
      rfl
  other := by
    intro name v record hname
    simp only [Layout.names, identifierLayout, List.map_cons, List.map_nil, List.mem_cons,
      List.not_mem_nil, or_false, not_or] at hname
    simp [identifierStep, hname.1, hname.2]

theorem foldl_identifierStep (members : Members Value) :
    members.foldl identifierStep ⟨none, none⟩ = .ofMembers members := by
  rw [Members.foldl_pair Identifier.mk "type" "id" (by decide) nonEmpty nonEmpty fun _ _ _ => rfl,
    Identifier.ofMembers]
  congr 1
  · cases Members.get? members "type" <;> rfl
  · cases Members.get? members "id" <;> rfl

theorem identifier_read_eq {room : Nat} {node : Node} {identifier : Identifier}
    (h : identifierLayout.read room node = .ok identifier) :
    identifier = .ofMembers (node.outline.members ["type", "id"]) := by
  rw [(ReadsBy.read_eq identifierLayout_readsBy h).2]
  exact foldl_identifierStep (node.outline.members ["type", "id"])

theorem scanIdentifier?_object (room : Nat) (members : List (List Piece × Node))
    (ending : Json.ObjectEnd) : scanIdentifier? room (.object members ending) =
      some <$> identifierLayout.read room (.object members ending) :=
  identifierLayout.map_read_object room some members ending

theorem scanLinkage_object (room : Nat) (members : List (List Piece × Node))
    (ending : Json.ObjectEnd) : scanLinkage room (.object members ending) =
      Linkage.one <$> identifierLayout.read room (.object members ending) :=
  identifierLayout.map_read_object room Linkage.one members ending

theorem scanIdentifier?_eq {room : Nat} {node : Node} {identifier : Option Identifier}
    (h : scanIdentifier? room node = .ok identifier) :
    identifier = Identifier.ofValue? node.outline := by
  cases node with
  | object members ending =>
    rw [scanIdentifier?_object, map_eq_ok] at h
    obtain ⟨i, hi, rfl⟩ := h
    exact congrArg some (identifier_read_eq hi)
  | list items ending =>
    simp only [scanIdentifier?, bind_eq_ok, pure_eq_ok] at h
    obtain ⟨_, _, _, _, _, _, rfl⟩ := h
    rfl
  | number n =>
    simp only [scanIdentifier?, bind_eq_ok, pure_eq_ok] at h
    obtain ⟨v, hv, rfl⟩ := h
    rw [Node.outline_of_value _ hv]
    cases v with
    | object members => simp [Node.value] at hv
    | _ => rfl
  | text pieces =>
    simp only [scanIdentifier?, bind_eq_ok, pure_eq_ok] at h
    obtain ⟨v, hv, rfl⟩ := h
    rw [Node.outline_of_value _ hv]
    cases v with
    | object members => simp [Node.value] at hv
    | _ => rfl
  | _ =>
    simp only [scanIdentifier?, bind_eq_ok, pure_eq_ok] at h
    obtain ⟨_, _, rfl⟩ := h
    rfl

theorem items_eq_map {α : Type} {read : Nat → Node → Except Json.Fault α} {g : Value → α}
    (hg : ∀ room node a, read room node = .ok a → a = g node.outline)
    {room : Nat} {node : Node} {results : List α} (h : Node.items room read node = .ok results) :
    ∃ items, node.outline = .array items ∧ results = items.map g := by
  cases node with
  | list items ending =>
    simp only [Node.items, bind_eq_ok, Node.enter_eq_ok, pure_eq_ok] at h
    obtain ⟨inner, _, read, hread, _, _, rfl⟩ := h
    refine ⟨Node.outlineItems items, rfl, ?_⟩
    rw [Node.outlineItems_eq]
    rw [mapM_eq_ok_iff] at hread
    induction hread with
    | nil => rfl
    | cons ha _ ih => rw [List.map_cons, List.map_cons, ← ih, hg _ _ _ ha]
  | _ => simp [Node.items] at h

theorem scanLinkage_eq {room : Nat} {node : Node} {linkage : Linkage}
    (h : scanLinkage room node = .ok linkage) : linkage = Linkage.ofValue node.outline := by
  cases node with
  | object members ending =>
    rw [scanLinkage_object, map_eq_ok] at h
    obtain ⟨i, hi, rfl⟩ := h
    exact congrArg Linkage.one (identifier_read_eq hi)
  | list items ending =>
    simp only [scanLinkage, bind_eq_ok, pure_eq_ok] at h
    obtain ⟨found, hfound, rfl⟩ := h
    obtain ⟨values, hvalues, rfl⟩ :=
      items_eq_map (g := Identifier.ofValue?) (fun _ _ _ h => scanIdentifier?_eq h) hfound
    rw [hvalues]
    exact congrArg Linkage.many List.filterMap_map
  | _ =>
    simp only [scanLinkage, bind_eq_ok, pure_eq_ok] at h
    obtain ⟨v, hv, rfl⟩ := h
    rw [Node.outline_of_value _ hv]
    cases v with
    | object members => simp [Node.value] at hv
    | array items => simp [Node.value] at hv
    | _ => rfl

def dataStep (linkage : Linkage) (m : String × Value) : Linkage :=
  if m.1 = "data" then Linkage.ofValue m.2 else linkage

theorem relationshipLayout_readsBy (room : Nat) : relationshipLayout.ReadsBy room dataStep where
  known := by
    intro field hfield node record record' hread
    simp only [relationshipLayout, List.mem_singleton] at hfield
    subst hfield
    exact scanLinkage_eq hread
  other := by
    intro name v record hname
    simp only [Layout.names, relationshipLayout, List.map_cons, List.map_nil, List.mem_cons,
      List.not_mem_nil, or_false] at hname
    simp [dataStep, hname]

theorem foldl_dataStep (members : Members Value) :
    members.foldl dataStep .absent =
      Linkage.ofValue ((Members.get? members "data").getD .null) := by
  induction members using List.reverseRecOn with
  | nil => rfl
  | append_singleton members m ih =>
    rw [List.foldl_concat, ih, dataStep, Members.get?_concat]
    split <;> rfl

theorem relationship_read_eq {room : Nat} {node : Node} {linkage : Linkage}
    (h : relationshipLayout.read room node = .ok linkage) :
    linkage = Linkage.ofData node.outline := by
  rw [(ReadsBy.read_eq relationshipLayout_readsBy h).2]
  exact foldl_dataStep (node.outline.members ["data"])

theorem members_eq_map {α : Type} {read : Nat → Node → Except Json.Fault α} {g : Value → α}
    (hg : ∀ room node a, read room node = .ok a → a = g node.outline)
    {room : Nat} {node : Node} {results : Members α}
    (h : Node.members room read node = .ok results) :
    results = (node.outline.members []).map fun m => (m.1, g m.2) := by
  cases node with
  | object members ending =>
    simp only [Node.members, bind_eq_ok, Node.enter_eq_ok, pure_eq_ok] at h
    obtain ⟨inner, _, read, hread, _, _, rfl⟩ := h
    rw [mapM_eq_ok_iff] at hread
    show read = (Node.outlineMembers members).map fun m => (m.1, g m.2)
    induction hread with
    | nil => rfl
    | @cons m result members results hmember _ ih =>
      simp only [bind_eq_ok, pure_eq_ok] at hmember
      obtain ⟨name, hname, a, ha, rfl⟩ := hmember
      rw [Node.outlineMembers_cons hname, List.map_cons, ← ih, hg _ _ _ ha]
  | _ => simp [Node.members] at h

theorem optional_eq {α : Type} {read : Node → Except Json.Fault α} {node : Node}
    {result : Option α} (h : Node.optional read node = .ok result) :
    node = .null ∧ result = none ∨ ∃ a, read node = .ok a ∧ result = some a := by
  cases node with
  | null =>
    cases h
    exact .inl ⟨rfl, rfl⟩
  | _ =>
    obtain ⟨a, ha, rfl⟩ := (map_eq_ok ..).mp h
    exact .inr ⟨a, ha, rfl⟩

theorem scanRelationships_eq {room : Nat} {node : Node} {relationships : Members Linkage}
    (h : scanRelationships room node = .ok relationships) :
    relationships = linkagesOf node.outline := by
  simp only [scanRelationships, bind_eq_ok, pure_eq_ok] at h
  obtain ⟨members?, hmembers, rfl⟩ := h
  rcases optional_eq hmembers with ⟨rfl, rfl⟩ | ⟨members, hread, rfl⟩
  · rfl
  · rw [members_eq_map (g := Linkage.ofData) (fun _ _ _ h => relationship_read_eq h) hread]
    rfl

theorem optional_string_eq {node : Node} {text : Option String}
    (h : Node.optional Node.string node = .ok text) : text = textOf (some node.outline) := by
  rcases optional_eq h with ⟨rfl, rfl⟩ | ⟨s, hs, rfl⟩
  · rfl
  · cases node with
    | text pieces =>
      simp only [Node.string] at hs
      rw [Node.outline, hs]
      rfl
    | _ => simp [Node.string] at hs

def resourceStep (resource : ScannedResource) (m : String × Value) : ScannedResource :=
  if m.1 = "id" then { resource with id := textOf (some m.2) }
  else if m.1 = "relationships" then { resource with relationships := linkagesOf m.2 }
  else resource

theorem resourceLayout_readsBy (room : Nat) : resourceLayout.ReadsBy room resourceStep where
  known := by
    intro field hfield node record record' hread
    simp only [resourceLayout, List.mem_cons, List.not_mem_nil, or_false] at hfield
    rcases hfield with rfl | rfl
    · simp only [bind_eq_ok, pure_eq_ok] at hread
      obtain ⟨id, hid, rfl⟩ := hread
      rw [optional_string_eq hid]
      rfl
    · simp only [bind_eq_ok, pure_eq_ok] at hread
      obtain ⟨relationships, hrelationships, rfl⟩ := hread
      rw [scanRelationships_eq hrelationships]
      rfl
  other := by
    intro name v record hname
    simp only [Layout.names, resourceLayout, List.map_cons, List.map_nil, List.mem_cons,
      List.not_mem_nil, or_false, not_or] at hname
    simp [resourceStep, hname.1, hname.2]

theorem foldl_resourceStep (members : Members Value) :
    members.foldl resourceStep ⟨none, []⟩ =
      ⟨textOf (Members.get? members "id"),
        linkagesOf ((Members.get? members "relationships").getD .null)⟩ := by
  rw [Members.foldl_pair ScannedResource.mk "id" "relationships" (by decide)
    (fun v => textOf (some v)) linkagesOf fun _ _ _ => rfl]
  congr 1
  · cases Members.get? members "id" <;> rfl
  · cases Members.get? members "relationships" <;> rfl

theorem resource_read_eq {room : Nat} {node : Node} {resource : ScannedResource}
    (h : resourceLayout.read room node = .ok resource) : resource = .ofValue node.outline := by
  rw [(ReadsBy.read_eq resourceLayout_readsBy h).2]
  exact foldl_resourceStep (node.outline.members ["id", "relationships"])

theorem scanPrimary_object (room : Nat) (members : List (List Piece × Node))
    (ending : Json.ObjectEnd) : scanPrimary room (.object members ending) =
      (fun resource => [resource]) <$> resourceLayout.read room (.object members ending) :=
  resourceLayout.map_read_object room (fun resource => [resource]) members ending

theorem scanPrimary_eq {room : Nat} {node : Node} {primary : List ScannedResource}
    (h : scanPrimary room node = .ok primary) : primary = Scan.primaryOf node.outline := by
  cases node with
  | null =>
    cases h
    rfl
  | object members ending =>
    rw [scanPrimary_object, map_eq_ok] at h
    obtain ⟨resource, hresource, rfl⟩ := h
    exact congrArg (fun resource => [resource]) (resource_read_eq hresource)
  | list items ending =>
    have hitems : Node.items room resourceLayout.read (.list items ending) = .ok primary := h
    obtain ⟨values, hvalues, rfl⟩ :=
      items_eq_map (g := ScannedResource.ofValue) (fun _ _ _ h => resource_read_eq h) hitems
    rw [hvalues]
    rfl
  | _ => simp [scanPrimary] at h

theorem scanIncluded_eq {room : Nat} {node : Node} {included : List Identifier}
    (h : scanIncluded room node = .ok included) : included = Scan.includedOf node.outline := by
  simp only [scanIncluded, bind_eq_ok, pure_eq_ok] at h
  obtain ⟨items?, hitems, rfl⟩ := h
  rcases optional_eq hitems with ⟨rfl, rfl⟩ | ⟨items, hread, rfl⟩
  · rfl
  · obtain ⟨values, hvalues, rfl⟩ := items_eq_map
      (g := fun item => Identifier.ofMembers (item.members ["type", "id"]))
      (fun _ _ _ h => identifier_read_eq h) hread
    rw [hvalues]
    rfl

def documentStep (scan : Scan) (m : String × Value) : Scan :=
  if m.1 = "data" then { scan with primary := Scan.primaryOf m.2 }
  else if m.1 = "included" then { scan with included := Scan.includedOf m.2 }
  else scan

theorem scanLayout_readsBy (room : Nat) : scanLayout.ReadsBy room documentStep where
  known := by
    intro field hfield node record record' hread
    simp only [scanLayout, List.mem_cons, List.not_mem_nil, or_false] at hfield
    rcases hfield with rfl | rfl
    · simp only [bind_eq_ok, pure_eq_ok] at hread
      obtain ⟨primary, hprimary, rfl⟩ := hread
      rw [scanPrimary_eq hprimary]
      rfl
    · simp only [bind_eq_ok, pure_eq_ok] at hread
      obtain ⟨included, hincluded, rfl⟩ := hread
      rw [scanIncluded_eq hincluded]
      rfl
  other := by
    intro name v record hname
    simp only [Layout.names, scanLayout, List.map_cons, List.map_nil, List.mem_cons,
      List.not_mem_nil, or_false, not_or] at hname
    simp [documentStep, hname.1, hname.2]

theorem foldl_documentStep (members : Members Value) :
    members.foldl documentStep ⟨[], []⟩ =
      ⟨Scan.primaryOf ((Members.get? members "data").getD .null),
        Scan.includedOf ((Members.get? members "included").getD .null)⟩ := by
  rw [Members.foldl_pair Scan.mk "data" "included" (by decide) Scan.primaryOf Scan.includedOf
    fun _ _ _ => rfl]
  congr 1
  · cases Members.get? members "data" <;> rfl
  · cases Members.get? members "included" <;> rfl

/-- A scan that succeeds is a function of what the tree of the text stands for. -/
theorem scan_eq_ofValue_outline {body : Bytes} {s : Scan} (h : scan body = .ok s) :
    s = .ofValue (Json.root body).outline := by
  have hscan := ((Json.readWith_eq_ok_iff ..).mp h).1
  rw [(ReadsBy.read_eq scanLayout_readsBy hscan).2]
  exact foldl_documentStep ((Json.root body).outline.members ["data", "included"])

/-- A text whose value can be read stands for this value. -/
theorem outline_of_readWith {body : Bytes} {v : Value}
    (hv : Json.readWith (Node.value Node.maxDepth) body = .ok v) :
    (Json.root body).outline = v :=
  Node.outline_of_value _ ((Json.readWith_eq_ok_iff ..).mp hv).1

/-- A scan that succeeds is a function of the value of the text. -/
theorem scan_eq {body : Bytes} {v : Value}
    (hv : Json.readWith (Node.value Node.maxDepth) body = .ok v) {s : Scan}
    (h : scan body = .ok s) : s = .ofValue v := by
  rw [scan_eq_ofValue_outline h, outline_of_readWith hv]

theorem exists_item_read {α : Type} (read : Nat → Node → Except Json.Fault α) {room : Nat}
    {node : Node} {values : List Value} (hv : node.value room = .ok (.array values))
    {results : List α} (h : Node.items room read node = .ok results) {v : Value}
    (hmem : v ∈ values) :
    ∃ inner item result, item.value inner = .ok v ∧ read inner item = .ok result := by
  cases node with
  | list items ending =>
    obtain ⟨inner, values, rfl, hvalues, _, heq⟩ := Node.value_list hv
    obtain rfl := Value.array.inj heq
    simp only [Node.items, bind_eq_ok, Node.enter_eq_ok] at h
    obtain ⟨_, hroom, read, hread, _⟩ := h
    obtain rfl := Nat.succ.inj hroom
    rw [Node.valueItems_iff] at hvalues
    obtain ⟨item, hitem, hvalue⟩ := exists_mem_of_forall₂ hvalues.flip hmem
    obtain ⟨result, _, hresult⟩ := exists_mem_of_forall₂ ((mapM_eq_ok_iff ..).mp hread) hitem
    exact ⟨inner, item, result, hvalue, hresult⟩
  | _ => simp [Node.items] at h

/-- What is under a known name was read by the field of this name. -/
theorem exists_field_of_scan {body : Bytes} {members : Members Value}
    (hv : Json.readWith (Node.value Node.maxDepth) body = .ok (.object members)) {s : Scan}
    (h : scan body = .ok s) {name : String} (hname : name ∈ scanLayout.names) {v : Value}
    (hget : Members.get? members name = some v) :
    ∃ field ∈ scanLayout.fields, field.name = name ∧ ∃ room node before after,
      node.value room = .ok v ∧ field.read room node before = .ok after := by
  have hvalue := ((Json.readWith_eq_ok_iff ..).mp hv).1
  have hscan := ((Json.readWith_eq_ok_iff ..).mp h).1
  exact (Layout.exists_field_of_read hvalue hscan).2 name hname v hget

/-- What is under `data` was scanned as primary data. -/
theorem exists_scanPrimary_of_scan {body : Bytes} {members : Members Value}
    (hv : Json.readWith (Node.value Node.maxDepth) body = .ok (.object members)) {s : Scan}
    (h : scan body = .ok s) {data : Value} (hdata : Members.get? members "data" = some data) :
    ∃ room node primary, node.value room = .ok data ∧ scanPrimary room node = .ok primary := by
  obtain ⟨field, hfield, hname, room, node, before, after, hnode, hread⟩ :=
    exists_field_of_scan hv h (by decide) hdata
  simp only [scanLayout, List.mem_cons, List.not_mem_nil, or_false] at hfield
  rcases hfield with rfl | rfl
  · simp only [bind_eq_ok] at hread
    obtain ⟨primary, hprimary, _⟩ := hread
    exact ⟨room, node, primary, hnode, hprimary⟩
  · exact absurd hname (show ¬ "included" = "data" by decide)

/-- What is under `included` was scanned for identifiers. -/
theorem exists_scanIncluded_of_scan {body : Bytes} {members : Members Value}
    (hv : Json.readWith (Node.value Node.maxDepth) body = .ok (.object members)) {s : Scan}
    (h : scan body = .ok s) {included : Value}
    (hincluded : Members.get? members "included" = some included) :
    ∃ room node found, node.value room = .ok included ∧ scanIncluded room node = .ok found := by
  obtain ⟨field, hfield, hname, room, node, before, after, hnode, hread⟩ :=
    exists_field_of_scan hv h (by decide) hincluded
  simp only [scanLayout, List.mem_cons, List.not_mem_nil, or_false] at hfield
  rcases hfield with rfl | rfl
  · exact absurd hname (show ¬ "data" = "included" by decide)
  · simp only [bind_eq_ok] at hread
    obtain ⟨found, hfound, _⟩ := hread
    exact ⟨room, node, found, hnode, hfound⟩

/-- An item of primary data that was scanned is an object or a list. -/
theorem accepts_of_scanPrimary {room : Nat} {node : Node} {values : List Value}
    (hv : node.value room = .ok (.array values)) {primary : List ScannedResource}
    (h : scanPrimary room node = .ok primary) : ∀ v ∈ values, resourceLayout.Accepts v := by
  intro v hmem
  cases node with
  | list items ending =>
    obtain ⟨inner, item, resource, hvalue, hread⟩ :=
      exists_item_read resourceLayout.read hv h hmem
    rw [← Node.outline_of_value item hvalue]
    exact (ReadsBy.read_eq resourceLayout_readsBy hread).1
  | _ => simp [Node.value] at hv

/-- The items of primary data that was scanned are scanned one by one. -/
theorem exists_item_scanned {body : Bytes} {members : Members Value}
    (hv : Json.readWith (Node.value Node.maxDepth) body = .ok (.object members)) {s : Scan}
    (hscan : scan body = .ok s) {values : List Value}
    (hdata : Members.get? members "data" = some (.array values)) {v : Value} (hmem : v ∈ values) :
    ∃ room node, node.value room = .ok v ∧
      resourceLayout.read room node = .ok (ScannedResource.ofValue v) := by
  obtain ⟨room, node, primary, hnode, hprimary⟩ := exists_scanPrimary_of_scan hv hscan hdata
  cases node with
  | list items ending =>
    obtain ⟨inner, item, scanned, hvalue, hread⟩ :=
      exists_item_read resourceLayout.read hnode hprimary hmem
    refine ⟨inner, item, hvalue, ?_⟩
    rw [← Node.outline_of_value item hvalue, ← resource_read_eq hread]
    exact hread
  | _ => simp [Node.value] at hnode

end ResearchRecords.Document
