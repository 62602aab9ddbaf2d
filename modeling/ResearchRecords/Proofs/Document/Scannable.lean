import ResearchRecords.Proofs.Document.Scanning

/-!
When a scan succeeds. Each part of a document can be scanned if the parts inside can and if no name
that the scan looks for is repeated. So a document of objects without repeated names can be scanned
whatever its identifiers hold, as long as the id of its resource is a string and every relationship
is an object.
-/
namespace ResearchRecords.Document

open Json (Value Members Node Layout CanRead)
open Results

theorem canRead_identifier {members : Members Value} (honce : identifierLayout.Once members) :
    CanRead identifierLayout.read (.object members) := by
  apply Layout.canRead_object honce
  · intro field hfield
    simp only [identifierLayout, List.mem_cons, List.not_mem_nil, or_false] at hfield
    rcases hfield with rfl | rfl <;> rfl
  · intro field hfield v _ record room node hv
    simp only [identifierLayout, List.mem_cons, List.not_mem_nil, or_false] at hfield
    rcases hfield with rfl | rfl
    · exact ⟨{ record with type := nonEmpty v }, by simp [scanText, hv]⟩
    · exact ⟨{ record with id := nonEmpty v }, by simp [scanText, hv]⟩

theorem canRead_scanIdentifier? {v : Value}
    (h : ∀ members, v = .object members → identifierLayout.Once members) :
    CanRead scanIdentifier? v := by
  intro room node hv
  cases node with
  | object members ending =>
    obtain ⟨_, values, _, _, _, rfl⟩ := Node.value_object hv
    obtain ⟨identifier, hread⟩ := canRead_identifier (h values rfl) _ _ hv
    exact ⟨some identifier, by simp [scanIdentifier?_object, hread]⟩
  | list items ending =>
    obtain ⟨inner, values, rfl, hvalues, hending, rfl⟩ := Node.value_list hv
    exact ⟨none, by simp [scanIdentifier?, Node.skipItems_of_value items hvalues, hending]⟩
  | _ => exact ⟨none, by simp [scanIdentifier?, hv]⟩

theorem canRead_scanLinkage {v : Value}
    (hobject : ∀ members, v = .object members → identifierLayout.Once members)
    (harray : ∀ items, v = .array items → ∀ item ∈ items, CanRead scanIdentifier? item) :
    CanRead scanLinkage v := by
  intro room node hv
  cases node with
  | object members ending =>
    obtain ⟨_, values, _, _, _, rfl⟩ := Node.value_object hv
    obtain ⟨identifier, hread⟩ := canRead_identifier (hobject values rfl) _ _ hv
    exact ⟨.one identifier, by simp [scanLinkage_object, hread]⟩
  | list items ending =>
    obtain ⟨inner, values, rfl, hvalues, hending, rfl⟩ := Node.value_list hv
    have hitems : ∀ item ∈ items, ∃ identifier, scanIdentifier? inner item = .ok identifier := by
      intro item hitem
      rw [Node.valueItems_iff] at hvalues
      obtain ⟨v, hmem, hvalue⟩ := exists_mem_of_forall₂ hvalues hitem
      exact harray values rfl v hmem inner item hvalue
    obtain ⟨found, hfound⟩ := exists_mapM_iff.mpr hitems
    exact ⟨.many found.reduceOption, by simp [scanLinkage, Node.items, hfound, hending]⟩
  | _ => exact ⟨.absent, by simp [scanLinkage, hv]⟩

theorem canRead_relationship {members : Members Value} (honce : relationshipLayout.Once members)
    (hdata : ∀ data, Members.get? members "data" = some data → CanRead scanLinkage data) :
    CanRead relationshipLayout.read (.object members) := by
  apply Layout.canRead_object honce
  · intro field hfield
    obtain rfl := List.mem_singleton.mp hfield
    rfl
  · intro field hfield v hget _
    obtain rfl := List.mem_singleton.mp hfield
    exact hdata v hget

theorem canRead_scanRelationships {named : Members Value}
    (h : ∀ m ∈ named, CanRead relationshipLayout.read m.2) :
    CanRead scanRelationships (.object named) := by
  intro room node hv
  cases node with
  | object nodes ending =>
    obtain ⟨inner, values, rfl, hvalues, hending, heq⟩ := Node.value_object hv
    obtain rfl := Value.object.inj heq
    have hmembers : ∀ m ∈ nodes, ∃ result : String × Linkage,
        (do
          let name ← Json.decodePieces m.1
          return (name, ← relationshipLayout.read inner m.2)) = .ok result := by
      intro m hm
      rw [Node.valueMembers_iff] at hvalues
      obtain ⟨v, hmem, hname, hvalue⟩ := exists_mem_of_forall₂ hvalues hm
      obtain ⟨linkage, hread⟩ := h v hmem inner m.2 hvalue
      exact ⟨(v.1, linkage), by simp [hname, hread]⟩
    obtain ⟨read, hread⟩ := exists_mapM_iff.mpr hmembers
    have hmembers : Node.members (inner + 1) relationshipLayout.read (.object nodes ending) =
        .ok read := by
      simp only [Node.members, bind_eq_ok, Node.enter_eq_ok, Json.refuse_eq_ok]
      exact ⟨inner, rfl, read, hread, (), hending, rfl⟩
    exact ⟨Members.ordered read, by simp [scanRelationships, Node.optional, hmembers]⟩
  | _ => simp [Node.value] at hv

theorem exists_optional_string {room : Nat} {node : Node} {s : String}
    (hv : node.value room = .ok (.string s)) : Node.optional Node.string node = .ok (some s) := by
  cases node with
  | text pieces =>
    simp only [Node.value, bind_eq_ok, pure_eq_ok, Value.string.injEq, exists_eq_right] at hv
    simp [Node.optional, Node.string, hv]
  | _ => simp [Node.value] at hv

theorem canRead_resource {members : Members Value} (honce : resourceLayout.Once members)
    (hid : ∀ id, Members.get? members "id" = some id →
      CanRead (fun _ => Node.optional Node.string) id)
    (hrelationships : ∀ named, Members.get? members "relationships" = some named →
      CanRead scanRelationships named) : CanRead resourceLayout.read (.object members) := by
  apply Layout.canRead_object honce
  · intro field hfield
    simp only [resourceLayout, List.mem_cons, List.not_mem_nil, or_false] at hfield
    rcases hfield with rfl | rfl <;> rfl
  · intro field hfield v hget record room node hv
    simp only [resourceLayout, List.mem_cons, List.not_mem_nil, or_false] at hfield
    rcases hfield with rfl | rfl
    · obtain ⟨id, hread⟩ := hid v hget room node hv
      exact ⟨{ record with id }, by simp [hread]⟩
    · obtain ⟨relationships, hread⟩ := hrelationships v hget room node hv
      exact ⟨{ record with relationships }, by simp [hread]⟩

theorem canRead_scanPrimary {members : Members Value}
    (h : CanRead resourceLayout.read (.object members)) : CanRead scanPrimary (.object members) := by
  intro room node hv
  obtain ⟨resource, hread⟩ := h room node hv
  cases node with
  | object nodes ending => exact ⟨[resource], by simp [scanPrimary_object, hread]⟩
  | _ => simp [Node.value] at hv

/-- A document can be scanned if its primary data and what it includes can. -/
theorem exists_scan {body : Bytes} {members : Members Value}
    (hv : Json.readWith (Node.value Node.maxDepth) body = .ok (.object members))
    (honce : scanLayout.Once members)
    (hdata : ∀ data, Members.get? members "data" = some data → CanRead scanPrimary data)
    (hincluded : ∀ included, Members.get? members "included" = some included →
      CanRead scanIncluded included) : ∃ s, scan body = .ok s := by
  obtain ⟨hvalue, hleftover⟩ := (Json.readWith_eq_ok_iff ..).mp hv
  have hread : CanRead scanLayout.read (.object members) := by
    apply Layout.canRead_object honce
    · intro field hfield
      simp only [scanLayout, List.mem_cons, List.not_mem_nil, or_false] at hfield
      rcases hfield with rfl | rfl <;> rfl
    · intro field hfield v hget record room node hv
      simp only [scanLayout, List.mem_cons, List.not_mem_nil, or_false] at hfield
      rcases hfield with rfl | rfl
      · obtain ⟨primary, hread⟩ := hdata v hget room node hv
        exact ⟨{ record with primary }, by simp [hread]⟩
      · obtain ⟨included, hread⟩ := hincluded v hget room node hv
        exact ⟨{ record with included }, by simp [hread]⟩
  obtain ⟨s, hs⟩ := hread _ _ hvalue
  exact ⟨s, (Json.readWith_eq_ok_iff ..).mpr ⟨hs, hleftover⟩⟩

theorem canRead_scanLinkage_of_distinct {v : Value} (h : v.Distinct) : CanRead scanLinkage v := by
  have honce : ∀ v : Value, v.Distinct → ∀ members, v = .object members →
      identifierLayout.Once members := by
    rintro _ hdistinct members rfl
    exact Layout.once_of_nodup ((Value.distinct_object_iff _).mp hdistinct).1
  apply canRead_scanLinkage (honce v h)
  rintro items rfl item hitem
  exact canRead_scanIdentifier? (honce item ((Value.distinct_array_iff _).mp h item hitem))

theorem canRead_relationship_of_distinct {members : Members Value}
    (h : (Value.object members).Distinct) : CanRead relationshipLayout.read (.object members) := by
  obtain ⟨hnodup, hmembers⟩ := (Value.distinct_object_iff _).mp h
  exact canRead_relationship (Layout.once_of_nodup hnodup) fun data hget =>
    canRead_scanLinkage_of_distinct (hmembers _ (Members.mem_of_get?_eq_some hget))

/-- Members of a resource that the scan does not refuse. -/
structure Scannable (members : Members Value) : Prop where
  id : ∀ v, ("id", v) ∈ members → ∃ s, v = .string s
  relationships : ∀ v, ("relationships", v) ∈ members →
    ∃ named, v = .object named ∧ ∀ m ∈ named, ∃ relationship, m.2 = .object relationship

theorem canRead_resource_of_scannable {members : Members Value}
    (hdistinct : (Value.object members).Distinct) (h : Scannable members) :
    CanRead resourceLayout.read (.object members) := by
  obtain ⟨hnodup, hmembers⟩ := (Value.distinct_object_iff _).mp hdistinct
  apply canRead_resource (Layout.once_of_nodup hnodup)
  · intro id hget room node hv
    obtain ⟨s, rfl⟩ := h.id id (Members.mem_of_get?_eq_some hget)
    exact ⟨some s, exists_optional_string hv⟩
  · intro v hget
    have hmem := Members.mem_of_get?_eq_some hget
    obtain ⟨named, rfl, hnamed⟩ := h.relationships v hmem
    apply canRead_scanRelationships
    intro m hm
    obtain ⟨relationship, heq⟩ := hnamed m hm
    have hrelationship := ((Value.distinct_object_iff _).mp (hmembers _ hmem)).2 m hm
    rw [heq] at hrelationship ⊢
    exact canRead_relationship_of_distinct hrelationship

/-- A document of one scannable resource, and of nothing included, can be scanned. -/
theorem exists_scan_eq_ok {body : Bytes} {document : Members Value}
    (hv : Json.readWith (Node.value Node.maxDepth) body = .ok (.object document))
    (hdistinct : (Value.object document).Distinct)
    (hdata : ∀ v, ("data", v) ∈ document → ∃ members, v = .object members ∧ Scannable members)
    (hincluded : ∀ v, ("included", v) ∉ document) : ∃ s, scan body = .ok s := by
  obtain ⟨hnodup, hmembers⟩ := (Value.distinct_object_iff _).mp hdistinct
  apply exists_scan hv (Layout.once_of_nodup hnodup)
  · intro data hget
    have hmem := Members.mem_of_get?_eq_some hget
    obtain ⟨members, rfl, hscannable⟩ := hdata data hmem
    exact canRead_scanPrimary (canRead_resource_of_scannable (hmembers _ hmem) hscannable)
  · intro included hget
    exact absurd (Members.mem_of_get?_eq_some hget) (hincluded included)

end ResearchRecords.Document
