import ResearchRecords.Proofs.Document.Elementwise

/-!
Two readers of a response. Its records are read from the tree of its value, and what is outstanding
is read from the text in passing, by other rules for what may be missing or repeated and for lists
in the place of objects. Where both succeed, they have seen the same: the same ids and linkage of
every primary resource, and the same types and ids of what is included. So a target is left out of
what is outstanding exactly if its record was built.
-/
namespace ResearchRecords.Document

open Json (Value Members Node)
open Results

def Primary.resources : Primary → List Resource
  | .empty => []
  | .one resource => [resource]
  | .many resources => resources

/-- What a scan should see of a resource. -/
def Resource.scanned (resource : Resource) : ScannedResource :=
  ⟨resource.id, resource.relationships⟩

def ScannedResource.linkage (resource : ScannedResource) (name : String) : Linkage :=
  (resource.relationships.get? name).getD .absent

/-- The second item of a list is scanned as the relationships of a resource. -/
theorem exists_scanRelationships_of_list {room : Nat} {id relationships : Node} {rest : List Node}
    {ending : Json.ListEnd} {resource : ScannedResource}
    (h : resourceLayout.read room (.list (id :: relationships :: rest) ending) = .ok resource) :
    ∃ inner found, room = inner + 1 ∧ scanRelationships inner relationships = .ok found := by
  simp only [Json.Layout.read, Json.Layout.readList, resourceLayout, Json.Layout.readItems,
    bind_eq_ok, Node.enter_eq_ok, pure_eq_ok] at h
  obtain ⟨inner, hroom, _, _, _, ⟨found, hfound, _⟩, _⟩ := h
  exact ⟨inner, found, hroom, hfound⟩

theorem scanRelationships_text (room : Nat) (pieces : List Json.Piece)
    (relationships : Members Linkage) :
    scanRelationships room (.text pieces) ≠ .ok relationships := by
  simp [scanRelationships, Node.optional, Node.members]

/-- The second item of a list that is a resource with an id is this id. -/
theorem exists_items_of_resource {items : List Value} {resource : Resource}
    (h : Resource.ofValue (Value.array items).canonical = .ok resource) {id : String}
    (hid : resource.id = some id) : ∃ type rest, items = type :: .string id :: rest := by
  rw [Value.canonical_array] at h
  have hget := (Resource.shows_of_ofValue h).id
  rw [hid, Value.members, (Resource.get?_zip_resourceFields _).2.1, eq_comm,
    textOf_eq_some_iff] at hget
  rcases items with _ | ⟨type, _ | ⟨second, rest⟩⟩
  · simp at hget
  · simp at hget
  · cases second with
    | string text =>
      simp only [List.map_cons, List.getElem?_cons_succ, List.getElem?_cons_zero, Value.canonical,
        Option.some.injEq, Value.string.injEq] at hget
      exact ⟨type, rest, by rw [hget]⟩
    | array items => simp [Value.canonical_array] at hget
    | object members => simp [Value.canonical_object] at hget
    | _ => simp [Value.canonical] at hget

/-- A resource with an id that was scanned is an object: in a list, what one reader takes for the id
is what the other takes for the relationships. -/
theorem isObject_of_scanned {room : Nat} {node : Node} {v : Value}
    (hnode : node.value room = .ok v) {scanned : ScannedResource}
    (hscanned : resourceLayout.read room node = .ok scanned) {resource : Resource}
    (hresource : Resource.ofValue v.canonical = .ok resource) {id : String}
    (hid : resource.id = some id) : isObject v = true := by
  cases v with
  | object members => rfl
  | array items =>
    obtain ⟨type, rest, rfl⟩ := exists_items_of_resource hresource hid
    cases node with
    | list nodes ending =>
      obtain ⟨inner, values, rfl, hvalues, _, heq⟩ := Node.value_list hnode
      obtain rfl := Value.array.inj heq
      rw [Node.valueItems_iff] at hvalues
      cases hvalues with
      | cons _ hvalues =>
        cases hvalues with
        | @cons second _ _ _ hsecond _ =>
          -- The scan would read the id as relationships, which are never a text.
          obtain ⟨room, found, hroom, hfound⟩ := exists_scanRelationships_of_list hscanned
          obtain rfl := Nat.succ.inj hroom
          cases second with
          | text pieces => exact absurd hfound (scanRelationships_text _ _ _)
          | list items ending => simp [Node.value] at hsecond
          | object members ending => simp [Node.value] at hsecond
          | _ => simp [Node.value] at hsecond
    | _ => simp [Node.value] at hnode
  | _ => simp [Resource.ofValue, Value.canonical] at hresource

theorem Primary.exists_value_of_mem {v : Value} {primary : Primary}
    (h : Primary.ofValue v = .ok primary) {resource : Resource}
    (hmem : resource ∈ primary.resources) : ∃ w, Resource.ofValue w = .ok resource := by
  rcases Primary.ofValue_cases h with ⟨_, rfl⟩ | ⟨items, resources, _, rfl, hmany⟩ |
    ⟨one, rfl, hone⟩
  · exact absurd hmem List.not_mem_nil
  · obtain ⟨item, _, hitem⟩ := exists_mem_of_forall₂ ((mapM_eq_ok_iff ..).mp hmany).flip hmem
    exact ⟨item, hitem⟩
  · obtain rfl := List.mem_singleton.mp hmem
    exact ⟨v, hone⟩

theorem ne_empty_of_mem_resource {body : Bytes} {document : Document}
    (hparse : parse body = .ok document) {resource : Resource}
    (hresource : resource ∈ document.primary.resources) {name : String} {target : Target}
    (h : target ∈ (resource.linkage name).targets) : target.1 ≠ "" ∧ target.2 ≠ "" := by
  obtain ⟨_, _, hmirrors⟩ := exists_members_of_parse hparse
  obtain ⟨v, hv⟩ := Primary.exists_value_of_mem hmirrors.primary hresource
  rw [(Resource.shows_of_ofValue hv).targets_linkage] at h
  exact Content.ne_empty_of_mem_targets h

/-- The resources of a list that was scanned, as far as they have ids. -/
theorem scanned_items {body : Bytes} {members : Members Value}
    (hv : Json.readWith (Node.value Node.maxDepth) body = .ok (.object members)) {s : Scan}
    (hs : scan body = .ok s) {values : List Value}
    (hdata : Members.get? members "data" = some (.array values)) {resources : List Resource}
    (hresources : List.Forall₂ (fun v resource => Resource.ofValue v.canonical = .ok resource)
      values resources) (hids : ∀ resource ∈ resources, ∃ id, resource.id = some id) :
    values.map ScannedResource.ofValue = resources.map Resource.scanned := by
  have hitems := (List.forall₂_and_left ..).mpr ⟨hids, ((List.forall₂_and_left ..).mpr
    ⟨fun v (hmem : v ∈ values) => hmem, hresources⟩).flip⟩
  have hscanned : List.Forall₂ (fun v resource => ScannedResource.ofValue v = resource.scanned)
      values resources := by
    apply hitems.flip.imp
    rintro v resource ⟨⟨id, hid⟩, hmem, hresource⟩
    obtain ⟨room, node, hnode, hread⟩ := exists_item_scanned hv hs hdata hmem
    obtain ⟨members, rfl⟩ :=
      exists_members_of_isObject (isObject_of_scanned hnode hread hresource hid)
    exact (Resource.shows_of_ofValue hresource).scanned_eq
  rw [← List.forall₂_eq_eq_eq, List.forall₂_map_left_iff, List.forall₂_map_right_iff]
  exact hscanned

/-- Primary resources with ids are scanned with these ids and with their linkage. -/
theorem primary_of_scan {body : Bytes} {document : Document} (hparse : parse body = .ok document)
    {s : Scan} (hs : scan body = .ok s)
    (hids : ∀ resource ∈ document.primary.resources, ∃ id, resource.id = some id) :
    s.primary = document.primary.resources.map Resource.scanned := by
  obtain ⟨members, hv, hmirrors⟩ := exists_members_of_parse hparse
  have hread := ((parse_eq_ok_iff hv document).mp hparse).1
  have hprimary : s.primary = Scan.primaryOf ((Members.get? members "data").getD .null) := by
    rw [scan_eq hv hs]
    rfl
  rcases Primary.ofValue_cases hread with ⟨hnull, hempty⟩ |
    ⟨items, resources, hitems, hmany, hmapM⟩ | ⟨resource, hone, _⟩
  · have hnothing : Scan.primaryOf ((Members.get? members "data").getD .null) = [] := by
      cases hdata : (Members.get? members "data").getD .null with
      | array items => simp [hdata, Value.canonical_array] at hnull
      | object members => simp [hdata, Value.canonical_object] at hnull
      | _ => rfl
    rw [hprimary, hnothing, hempty]
    rfl
  · obtain ⟨values, hdata, rfl⟩ : ∃ values, Members.get? members "data" = some (.array values) ∧
        items = values.map Value.canonical := by
      cases hdata : Members.get? members "data" with
      | none => simp [hdata, Value.canonical] at hitems
      | some data =>
        rw [hdata, Option.getD_some] at hitems
        cases data with
        | array values =>
          rw [Value.canonical_array] at hitems
          exact ⟨values, rfl, (Value.array.inj hitems).symm⟩
        | object members => simp [Value.canonical_object] at hitems
        | _ => simp [Value.canonical] at hitems
    rw [mapM_eq_ok_iff, List.forall₂_map_left_iff] at hmapM
    rw [hmany] at hids ⊢
    rw [hprimary, hdata]
    exact scanned_items hv hs hdata hmapM hids
  · rw [(scan_agrees hparse hone hs).1, hone]
    rfl

/-- What gives one record or none gives them as a list, too. -/
theorem decodeMany_of_decodeOne {kind : Kind} {body : Bytes} {record? : Option Record}
    (h : decodeOne kind body = .ok record?) : decodeMany kind body = .ok record?.toList := by
  simp only [decodeOne, bind_eq_ok] at h
  obtain ⟨document, hparse, h⟩ := h
  simp only [decodeMany, bind_eq_ok]
  refine ⟨document, hparse, ?_⟩
  cases hprimary : document.primary with
  | empty =>
    simp only [hprimary, pure_eq_ok] at h
    obtain rfl := h
    rfl
  | one resource =>
    simp only [hprimary, bind_eq_ok, pure_eq_ok] at h
    obtain ⟨record, hrecord, rfl⟩ := h
    simp [hrecord]
  | many resources => simp [hprimary] at h

/-- The records of a document are those of its primary resources. -/
theorem decodeMany_eq_ok (kind : Kind) (body : Bytes) (records : List Record) :
    decodeMany kind body = .ok records ↔ ∃ document, parse body = .ok document ∧
      List.Forall₂ (fun resource record => primaryRecord document kind resource = .ok record)
        document.primary.resources records := by
  simp only [decodeMany, bind_eq_ok]
  refine exists_congr fun document => and_congr_right fun _ => ?_
  cases document.primary with
  | empty => rw [pure_eq_ok, Primary.resources, List.forall₂_nil_left_iff, eq_comm]
  | one resource =>
    simp only [bind_eq_ok, pure_eq_ok, Primary.resources, List.forall₂_cons_left_iff,
      List.forall₂_nil_left_iff]
    simp [eq_comm]
  | many resources => exact mapM_eq_ok_iff ..

theorem primaryRecord_of_decodeMany {kind : Kind} {body : Bytes} {records : List Record}
    (h : decodeMany kind body = .ok records) :
    ∃ document, parse body = .ok document ∧ ∀ resource ∈ document.primary.resources,
      ∃ record, primaryRecord document kind resource = .ok record := by
  obtain ⟨document, hparse, hrecords⟩ := (decodeMany_eq_ok ..).mp h
  refine ⟨document, hparse, fun resource hmem => ?_⟩
  obtain ⟨record, _, hrecord⟩ := exists_mem_of_forall₂ hrecords hmem
  exact ⟨record, hrecord⟩

/-- The targets of all repositories that a scan has seen. -/
def Scan.repositories (s : Scan) : List Target :=
  s.primary.flatMap fun resource => (resource.linkage "repositories").targets

end ResearchRecords.Document
