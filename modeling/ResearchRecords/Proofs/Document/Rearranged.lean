import ResearchRecords.Proofs.Document.Acceptance
import ResearchRecords.Proofs.Document.Pages
import ResearchRecords.Proofs.Json.Stable

/-!
Responses that differ in order. The members of any object may come in another order, and so may the
resources that are included. Whenever one of two such responses can be scanned or read as a document,
the other one can: the primary data are the same, and the included resources are a permutation.
-/
namespace ResearchRecords.Document

open Json (Value Members Node Layout Field Piece Reordered Permuted SameText Stable)
open Results

/-- Members of the same name. The values are equal up to the order of members and, of what is
included, up to the order of items. -/
def SamePart (m m' : List Piece × Node) : Prop :=
  SameText m.1 m'.1 ∧
    (Reordered m.2 m'.2 ∨ Json.decodePieces m.1 = .ok "included" ∧ Permuted m.2 m'.2)

/-- Documents that are equal up to the order of members and of what is included. -/
inductive SameUpToOrder : Node → Node → Prop
  | reordered {a b : Node} (h : Reordered a b) : SameUpToOrder a b
  | parts {members members' : List (List Piece × Node)} (h : Matched SamePart members members') :
      SameUpToOrder (.object members .closed) (.object members' .closed)

theorem SamePart.symm {m m' : List Piece × Node} (h : SamePart m m') : SamePart m' m := by
  obtain ⟨hname, hvalue⟩ := h
  refine ⟨hname.symm, ?_⟩
  rcases hvalue with hvalue | ⟨hincluded, hvalue⟩
  · exact .inl hvalue.symm
  · exact .inr ⟨hname.decodePieces_eq hincluded, hvalue.symm⟩

theorem SamePart.skip_eq {m m' : List Piece × Node} (h : SamePart m m') : m'.2.skip = .ok () := by
  rcases h.2 with hvalue | ⟨_, hvalue⟩
  · exact hvalue.skip_eq
  · exact hvalue.skip_eq

theorem SameUpToOrder.symm {a b : Node} (h : SameUpToOrder a b) : SameUpToOrder b a := by
  cases h with
  | reordered h => exact .reordered h.symm
  | parts h => exact .parts (h.symm.imp fun _ _ h => h.symm)

theorem stable_value : Stable SameUpToOrder fun room node => node.value room := by
  intro room a b h
  cases h with
  | reordered h => exact Json.stable_value room a b h
  | parts h =>
    simp only [Node.exists_value_object_iff]
    rintro ⟨inner, rfl, hmembers⟩
    refine ⟨inner, rfl, fun m' hm' => ?_⟩
    obtain ⟨m, hm, hname, hvalue⟩ := h.exists_left hm'
    obtain ⟨v, hdecoded, hv⟩ := hmembers m hm
    have hread : ∃ w, m'.2.value inner = .ok w := by
      rcases hvalue with hvalue | ⟨_, hvalue⟩
      · exact Json.stable_value inner _ _ hvalue ⟨v.2, hv⟩
      · exact Json.stable_value_of_permuted inner _ _ hvalue ⟨v.2, hv⟩
    obtain ⟨w, hw⟩ := hread
    exact ⟨(v.1, w), hname.decodePieces_eq hdecoded, hw⟩

/-- A record that is read from documents has to take what is included in any order. -/
theorem stable_read {σ : Type} {layout : Layout σ}
    (hnever : ∀ field ∈ layout.fields, field.presence = .never)
    (hfields : ∀ field ∈ layout.fields, field.Stable Reordered)
    (hincluded : ∀ field ∈ layout.fields, field.name = "included" → field.Stable Permuted) :
    Stable SameUpToOrder layout.read := by
  rintro room a b h ⟨r, hr⟩
  cases h with
  | reordered h => exact Layout.stable_read hnever hfields room a b h ⟨r, hr⟩
  | parts h =>
    simp only [Layout.read, bind_eq_ok, Node.enter_eq_ok] at hr ⊢
    obtain ⟨inner, hroom, hr⟩ := hr
    have hfield : ∀ m m', SamePart m m' → ∀ field ∈ layout.fields,
        Json.decodePieces m.1 = .ok field.name →
          (∃ record next, field.read inner m.2 record = .ok next) →
            ∀ record, ∃ next, field.read inner m'.2 record = .ok next := by
      rintro m m' ⟨_, hvalue⟩ field hmem hname hread
      -- Only the field for what is included meets items in another order.
      rcases hvalue with hvalue | ⟨hdecoded, hvalue⟩
      · exact hfields field hmem inner _ _ hvalue hread
      · obtain heq : field.name = "included" := Except.ok.inj (hname.symm.trans hdecoded)
        exact hincluded field hmem heq inner _ _ hvalue hread
    obtain ⟨r', hr'⟩ := Layout.exists_readObject_of_matched hnever (fun _ _ => And.left)
      (fun _ _ => SamePart.skip_eq) hfield h ⟨r, hr⟩
    exact ⟨r', inner, hroom, hr'⟩

theorem stable_scanText : Stable Reordered scanText := Json.stable_value.map nonEmpty

theorem stable_identifier : Stable Reordered identifierLayout.read := by
  apply Layout.stable_read
  · simp [identifierLayout]
  · intro field hfield
    simp only [identifierLayout, List.mem_cons, List.not_mem_nil, or_false] at hfield
    rcases hfield with rfl | rfl
    · exact Field.stable_of_put stable_scanText "type" _ fun (i : Identifier) type => { i with type }
    · exact Field.stable_of_put stable_scanText "id" _ fun (i : Identifier) id => { i with id }

theorem stable_scanIdentifier? : Stable Reordered scanIdentifier? := by
  rintro room a b h ⟨r, hr⟩
  have hskip := h.skip_eq
  have hvalue := Json.stable_value room a b h
  have hread := stable_identifier room a b h
  cases h with
  | object names each order =>
    rw [scanIdentifier?_object, map_eq_ok] at hr
    obtain ⟨identifier, hidentifier, _⟩ := hr
    obtain ⟨other, hother⟩ := hread ⟨identifier, hidentifier⟩
    exact ⟨some other, by rw [scanIdentifier?_object, hother]; rfl⟩
  | list each =>
    simp only [scanIdentifier?, Node.skip, bind_eq_ok, Node.enter_eq_ok,
      Json.refuse_eq_ok] at hr hskip ⊢
    obtain ⟨inner, hroom, _⟩ := hr
    obtain ⟨_, hitems, hending⟩ := hskip
    exact ⟨none, inner, hroom, (), hitems, (), hending, rfl⟩
  | _ =>
    simp only [scanIdentifier?, bind_eq_ok] at hr ⊢
    obtain ⟨v, hv, _⟩ := hr
    obtain ⟨w, hw⟩ := hvalue ⟨v, hv⟩
    exact ⟨none, w, hw, rfl⟩

theorem stable_scanLinkage : Stable Reordered scanLinkage := by
  rintro room a b h ⟨r, hr⟩
  have hvalue := Json.stable_value room a b h
  have hread := stable_identifier room a b h
  have hitems := (Node.stable_items stable_scanIdentifier?).map
    (fun found => Linkage.many found.reduceOption) room a b h
  cases h with
  | object names each order =>
    rw [scanLinkage_object, map_eq_ok] at hr
    obtain ⟨identifier, hidentifier, _⟩ := hr
    obtain ⟨other, hother⟩ := hread ⟨identifier, hidentifier⟩
    exact ⟨.one other, by rw [scanLinkage_object, hother]; rfl⟩
  | list each => exact hitems ⟨r, hr⟩
  | _ =>
    simp only [scanLinkage, bind_eq_ok] at hr ⊢
    obtain ⟨v, hv, _⟩ := hr
    obtain ⟨w, hw⟩ := hvalue ⟨v, hv⟩
    exact ⟨.absent, w, hw, rfl⟩

theorem stable_relationship : Stable Reordered relationshipLayout.read := by
  apply Layout.stable_read
  · simp [relationshipLayout]
  · intro field hfield
    obtain rfl := List.mem_singleton.mp hfield
    exact Field.stable_of_read stable_scanLinkage "data" _

theorem stable_scanRelationships : Stable Reordered scanRelationships :=
  (Node.stable_optional Reordered.eq_null
    (Node.stable_members stable_relationship)).map fun members =>
      Members.ordered (members.getD [])

theorem stable_resource : Stable Reordered resourceLayout.read := by
  apply Layout.stable_read
  · simp [resourceLayout]
  · intro field hfield
    simp only [resourceLayout, List.mem_cons, List.not_mem_nil, or_false] at hfield
    rcases hfield with rfl | rfl
    · exact Field.stable_of_put
        (Node.stable_optional Reordered.eq_null Node.stable_string) "id" _
        fun (r : ScannedResource) id => { r with id }
    · exact Field.stable_of_put stable_scanRelationships "relationships" _
        fun (r : ScannedResource) relationships => { r with relationships }

theorem stable_scanPrimary : Stable Reordered scanPrimary := by
  rintro room a b h ⟨r, hr⟩
  have hread := stable_resource room a b h
  have hitems := Node.stable_items stable_resource room a b h
  cases h with
  | null => exact ⟨[], rfl⟩
  | object names each order =>
    rw [scanPrimary_object, map_eq_ok] at hr
    obtain ⟨resource, hresource, _⟩ := hr
    obtain ⟨other, hother⟩ := hread ⟨resource, hresource⟩
    exact ⟨[other], by rw [scanPrimary_object, hother]; rfl⟩
  | list each => exact hitems ⟨r, hr⟩
  | _ => simp [scanPrimary] at hr

theorem stable_scanIncluded : Stable Reordered scanIncluded :=
  (Node.stable_optional Reordered.eq_null (Node.stable_items stable_identifier)).map
    fun items => items.getD []

theorem stable_scanIncluded_of_permuted : Stable Permuted scanIncluded :=
  (Node.stable_optional Permuted.eq_null (Node.stable_items_of_permuted stable_identifier)).map
    fun items => items.getD []

theorem stable_scan : Stable SameUpToOrder scanLayout.read := by
  apply stable_read
  · simp [scanLayout]
  · intro field hfield
    simp only [scanLayout, List.mem_cons, List.not_mem_nil, or_false] at hfield
    rcases hfield with rfl | rfl
    · exact Field.stable_of_put stable_scanPrimary "data" _ fun (s : Scan) primary => { s with primary }
    · exact Field.stable_of_put stable_scanIncluded "included" _ fun (s : Scan) included =>
        { s with included }
  · intro field hfield hname
    simp only [scanLayout, List.mem_cons, List.not_mem_nil, or_false] at hfield
    rcases hfield with rfl | rfl
    · exact absurd hname (show ¬ "data" = "included" by decide)
    · exact Field.stable_of_put stable_scanIncluded_of_permuted "included" _ fun (s : Scan) included =>
        { s with included }

theorem stable_signed64 : Stable Reordered fun _ => Node.signed64 := by
  rintro room a b h ⟨i, hi⟩
  cases h with
  | @number n m same =>
    simp only [Node.signed64, Node.integer, bind_eq_ok] at hi ⊢
    obtain ⟨number, hnumber, hi⟩ := hi
    rw [← toOption_eq_some, same, toOption_eq_some] at hnumber
    exact ⟨i, number, hnumber, hi⟩
  | _ => simp [Node.signed64, Node.integer] at hi

theorem stable_optionalField {α : Type} {read : Nat → Node → Except Json.Fault α}
    (h : Stable Reordered read) (record name : String) :
    ∀ field ∈ (optionalField record name read).fields, field.Stable Reordered := by
  intro field hfield
  obtain rfl := List.mem_singleton.mp hfield
  exact Field.stable_of_read (Node.stable_optional Reordered.eq_null h) name _

theorem stable_metaDocument : Stable SameUpToOrder metaDocumentLayout.read := by
  have hpage : Stable Reordered pageLayout.read :=
    Layout.stable_read (by simp [pageLayout, optionalField])
      (stable_optionalField stable_signed64 "PageMeta" "totalRecords")
  have hmeta : Stable Reordered metaLayout.read :=
    Layout.stable_read (by simp [metaLayout, optionalField])
      (stable_optionalField hpage "Meta" "page")
  apply stable_read
  · simp [metaDocumentLayout, optionalField]
  · exact stable_optionalField hmeta "MetaDocument" "meta"
  · intro field hfield hname
    obtain rfl := List.mem_singleton.mp hfield
    exact absurd hname (show ¬ "meta" = "included" by decide)

end ResearchRecords.Document
