import ResearchRecords.Proofs.Document.Elementwise
import ResearchRecords.Proofs.Document.Extension
import ResearchRecords.Proofs.Document.Merging

/-!
Reading a document with further relationships. Both readers pass over them: the document decodes to
the same record, and merging ignores their entries. Only listing what is outstanding looks into them,
and it fails where one of them has remaining targets of several types.
-/
namespace ResearchRecords.Document

open Json (Value Members Node Layout CanRead)
open Results

theorem identifierOnce_of_isIdentifier {v : Value} (h : IsIdentifier v) (members : Members Value)
    (hv : v = .object members) : identifierLayout.Once members := by
  obtain ⟨found, rfl, hnodup, _⟩ := h
  obtain rfl := Value.object.inj hv
  exact Layout.once_of_nodup hnodup

theorem canRead_of_isRelationship {v : Value} (h : IsRelationship v) :
    CanRead relationshipLayout.read v := by
  obtain ⟨members, data, rfl, hnodup, hget, hdata⟩ := h
  apply canRead_relationship (Layout.once_of_nodup hnodup)
  intro found hfound
  obtain rfl := Option.some.inj (hget.symm.trans hfound)
  rcases hdata with rfl | hidentifier | ⟨items, rfl, hitems⟩
  · exact canRead_scanLinkage (fun _ h => by cases h) (fun _ h => by cases h)
  · apply canRead_scanLinkage (identifierOnce_of_isIdentifier hidentifier)
    rintro items rfl
    obtain ⟨_, h, _⟩ := hidentifier
    cases h
  · apply canRead_scanLinkage (fun _ h => by cases h)
    intro found heq item hitem
    obtain rfl := Value.array.inj heq
    exact canRead_scanIdentifier? (identifierOnce_of_isIdentifier (hitems item hitem))

/-- Relationships that were scanned can each be read. -/
theorem canRead_of_scanRelationships {room : Nat} {node : Node} {v : Value}
    (hv : node.value room = .ok v) {found : Members Linkage}
    (h : scanRelationships room node = .ok found) :
    ∀ m ∈ v.members [], CanRead relationshipLayout.read m.2 := by
  simp only [scanRelationships, bind_eq_ok] at h
  obtain ⟨members?, hmembers, _⟩ := h
  rcases optional_eq hmembers with ⟨rfl, _⟩ | ⟨read, hread, _⟩
  · obtain rfl := Except.ok.inj hv
    exact fun m hm => absurd hm List.not_mem_nil
  · cases node with
    | object nodes ending =>
      obtain ⟨inner, values, rfl, hvalues, _, rfl⟩ := Node.value_object hv
      simp only [Node.members, bind_eq_ok, Node.enter_eq_ok] at hread
      obtain ⟨_, hroom, read, hread, _⟩ := hread
      obtain rfl := Nat.succ.inj hroom
      intro m hm
      rw [Node.valueMembers_iff] at hvalues
      obtain ⟨entry, hentry, _, hvalue⟩ := exists_mem_of_forall₂ hvalues.flip hm
      obtain ⟨result, _, hresult⟩ := exists_mem_of_forall₂ ((mapM_eq_ok_iff ..).mp hread) hentry
      simp only [bind_eq_ok] at hresult
      obtain ⟨_, _, linkage, hlinkage, _⟩ := hresult
      exact relationshipLayout_determined.canRead hvalue hlinkage
    | _ => simp [Node.members] at hread

/-- What a resource that was scanned has under the names that the scan looks for. -/
theorem canRead_of_resource_read {room : Nat} {node : Node} {members : Members Value}
    (hv : node.value room = .ok (.object members)) {resource : ScannedResource}
    (h : resourceLayout.read room node = .ok resource) :
    resourceLayout.Once members ∧
      (∀ id, Members.get? members "id" = some id →
        CanRead (fun _ => Node.optional Node.string) id) ∧
      ∀ m ∈ ((Members.get? members "relationships").getD .null).members [],
        CanRead relationshipLayout.read m.2 := by
  obtain ⟨honce, hfields⟩ := Layout.exists_field_of_read hv h
  refine ⟨honce, fun id hget => ?_, ?_⟩
  · obtain ⟨field, hfield, hname, room, node, before, after, hnode, hread⟩ :=
      hfields "id" (by decide) id hget
    simp only [resourceLayout, List.mem_cons, List.not_mem_nil, or_false] at hfield
    rcases hfield with rfl | rfl
    · simp only [bind_eq_ok] at hread
      obtain ⟨_, hid, _⟩ := hread
      exact (Node.optional_determined Node.string_determined).canRead hnode hid
    · exact absurd hname (show ¬ "relationships" = "id" by decide)
  · cases hget : Members.get? members "relationships" with
    | none => exact fun m hm => absurd hm List.not_mem_nil
    | some held =>
      obtain ⟨field, hfield, hname, room, node, before, after, hnode, hread⟩ :=
        hfields "relationships" (by decide) held hget
      simp only [resourceLayout, List.mem_cons, List.not_mem_nil, or_false] at hfield
      rcases hfield with rfl | rfl
      · exact absurd hname (show ¬ "id" = "relationships" by decide)
      · simp only [bind_eq_ok] at hread
        obtain ⟨found, hfound, _⟩ := hread
        exact canRead_of_scanRelationships hnode hfound

/-- A resource that was scanned can be scanned with further relationships. -/
theorem canRead_of_puts {kind : Kind} {room : Nat} {node : Node} {old new : Members Value}
    (hv : node.value room = .ok (.object old)) {resource : ScannedResource}
    (h : resourceLayout.read room node = .ok resource)
    (hputs : Puts "relationships" (ExtendsRelationships kind) old new) :
    CanRead resourceLayout.read (.object new) := by
  obtain ⟨honce, hid, hmembers⟩ := canRead_of_resource_read hv h
  apply canRead_resource (hputs.once honce)
  · intro id hget
    rw [hputs.get?_of_ne (by decide)] at hget
    exact hid id hget
  · intro named hget
    obtain ⟨value, hvalue, found, rfl, hadds⟩ := hputs.exists_get? honce (by decide)
    obtain rfl := Option.some.inj (hvalue.symm.trans hget)
    apply canRead_scanRelationships
    intro m hm
    rcases hadds.mem hm with hold | hrelationship
    · exact hmembers m hold
    · exact canRead_of_isRelationship hrelationship

section

variable {kind : Kind} {body body' : Bytes} {old new : Members Value}
  (hv : Json.readWith (Node.value Node.maxDepth) body = .ok (.object old))
  (hv' : Json.readWith (Node.value Node.maxDepth) body' = .ok (.object new))
  (hextends : Extends kind old new)

include hv in
theorem once_of_scan {s : Scan} (hscan : scan body = .ok s) : scanLayout.Once old :=
  (Layout.exists_field_of_read ((Json.readWith_eq_ok_iff ..).mp hv).1
    ((Json.readWith_eq_ok_iff ..).mp hscan).1).1

include hv hextends

/-- Where the document was scanned, the primary resource is an object, which is extended. -/
theorem exists_primary_extended {s : Scan} (hscan : scan body = .ok s) :
    ∃ held value, Members.get? old "data" = some (.object held) ∧
      Members.get? new "data" = some (.object value) ∧
      Puts "relationships" (ExtendsRelationships kind) held value ∧
      ∃ room node resource, node.value room = .ok (.object held) ∧
        resourceLayout.read room node = .ok resource := by
  obtain ⟨_, hvalue, held, value, hheld, rfl, hputs⟩ :=
    hextends.exists_get? (once_of_scan hv hscan) (by decide)
  have hget : Members.get? old "data" = some (.object held) := by
    cases hget : Members.get? old "data" with
    | none => simp [hget] at hheld
    | some found => rw [← hheld, hget, Option.getD_some]
  obtain ⟨room, node, primary, hnode, hprimary⟩ := exists_scanPrimary_of_scan hv hscan hget
  refine ⟨held, value, hget, hvalue, hputs, room, node, ?_⟩
  cases node with
  | object nodes ending =>
    rw [scanPrimary_object, map_eq_ok] at hprimary
    obtain ⟨resource, hread, _⟩ := hprimary
    exact ⟨resource, hnode, hread⟩
  | _ => simp [Node.value] at hnode

include hv'

/-- A document that was scanned can be scanned with further relationships. -/
theorem exists_scan_extended {s : Scan} (hscan : scan body = .ok s) :
    ∃ s', scan body' = .ok s' := by
  apply exists_scan hv' (hextends.once (once_of_scan hv hscan))
  · intro data hdata
    obtain ⟨held, value, _, hvalue, hputs, room, node, resource, hnode, hread⟩ :=
      exists_primary_extended hv hextends hscan
    obtain rfl := Option.some.inj (hvalue.symm.trans hdata)
    exact canRead_scanPrimary (canRead_of_puts hnode hread hputs)
  · intro included hget
    rw [hextends.get?_of_ne (by decide)] at hget
    obtain ⟨room, node, found, hnode, hfound⟩ := exists_scanIncluded_of_scan hv hscan hget
    exact scanIncluded_determined.canRead hnode hfound

end

namespace Resource

theorem ofValue_eq_ok_iff (members : Members Value) (resource : Resource) :
    ofValue (Value.object members).canonical = .ok resource ↔
      readAttributes ((Members.get? members "attributes").getD .null).canonical =
          .ok resource.attributes ∧
        readId ((Members.get? members "id").getD .null).canonical = .ok resource.id ∧
        readRelationships ((Members.get? members "relationships").getD .null).canonical =
          .ok resource.relationships ∧
        (Members.get? members "type").map Value.canonical = some (.string resource.type) := by
  rw [Value.canonical_object]
  show ofMembers (Value.canonicalObject members) = .ok resource ↔ _
  simp only [ofMembers_eq_ok_iff, Value.get?_canonicalObject, getD_map_canonical]

/-- The relationships of a resource, by the value of the text it was read from. -/
theorem Shows.get?_relationships {members : Members Value} {resource : Resource}
    (h : resource.Shows ((Value.object members).canonical.members resourceFields))
    (name : String) :
    Members.get? resource.relationships name =
      (Members.get? (((Members.get? members "relationships").getD .null).members []) name).map
        Linkage.ofData := by
  have hget : Members.get? ((Value.object members).canonical.members resourceFields)
      "relationships" = (Members.get? members "relationships").map Value.canonical :=
    Value.get?_members_canonical resourceFields (.object members) "relationships"
  rw [h.relationships, Members.get?_map, hget, getD_map_canonical, Value.get?_members_canonical,
    Option.map_map]
  congr 1
  funext v
  exact Linkage.ofData_canonical v

/-- Relationships that were read are each a relationship. -/
theorem exists_ofRelationship {v : Value} {links : Members Linkage}
    (h : readRelationships v.canonical = .ok links) {name : String} {relationship : Value}
    (hget : Members.get? (v.members []) name = some relationship) :
    ∃ linkage, Linkage.ofRelationship relationship.canonical = .ok linkage := by
  cases v with
  | object members =>
    rw [Value.canonical_object] at h
    have hfound : Members.get? (Value.canonicalObject members) name =
        some relationship.canonical := by
      rw [Value.get?_canonicalObject]
      exact congrArg (Option.map Value.canonical) hget
    obtain ⟨_, hread⟩ :=
      exists_mapM_iff.mp ⟨links, h⟩ _ (Members.mem_of_get?_eq_some hfound)
    simp only [bind_eq_ok] at hread
    obtain ⟨linkage, hlinkage, _⟩ := hread
    exact ⟨linkage, hlinkage⟩
  | _ => simp [Value.members] at hget

theorem exists_readRelationships {named : Members Value}
    (h : ∀ name relationship, Members.get? named name = some relationship →
      ∃ linkage, Linkage.ofRelationship relationship.canonical = .ok linkage) :
    ∃ links, readRelationships (Value.object named).canonical = .ok links := by
  rw [Value.canonical_object]
  apply exists_mapM_iff.mpr
  intro m hm
  have hget := (Members.get?_eq_some_iff (Members.sorted_ordered _).nodup_names m.1 m.2).mpr hm
  have hfound : (Members.get? named m.1).map Value.canonical = some m.2 := by
    rw [← Value.get?_canonicalObject]
    exact hget
  obtain ⟨relationship, hrelationship, heq⟩ := Option.map_eq_some_iff.mp hfound
  obtain ⟨linkage, hlinkage⟩ := h m.1 relationship hrelationship
  exact ⟨(m.1, linkage), by simp [← heq, hlinkage]⟩

end Resource

/-- A relationship that was added is a relationship. -/
theorem exists_ofRelationship_of_isRelationship {v : Value} (h : IsRelationship v) :
    ∃ linkage, Linkage.ofRelationship v.canonical = .ok linkage := by
  obtain ⟨members, _, rfl, _⟩ := h
  rw [Value.canonical_object]
  exact ⟨_, rfl⟩

theorem Adds.exists_readRelationships {kind : Kind} {held : Value} {named : Members Value}
    (h : Adds kind (held.members []) named) {links : Members Linkage}
    (hheld : Resource.readRelationships held.canonical = .ok links) :
    ∃ links, Resource.readRelationships (Value.object named).canonical = .ok links := by
  apply Resource.exists_readRelationships
  intro name relationship hget
  rcases h.get?_eq_some hget with hold | hrelationship
  · exact Resource.exists_ofRelationship hheld hold
  · exact exists_ofRelationship_of_isRelationship hrelationship

/-- With further relationships a resource is the same but for undeclared names. -/
theorem exists_resource_extended {kind : Kind} {old new : Members Value} {resource : Resource}
    (h : Resource.ofValue (Value.object old).canonical = .ok resource)
    (honce : resourceLayout.Once old)
    (hputs : Puts "relationships" (ExtendsRelationships kind) old new) :
    ∃ relationships,
      Resource.ofValue (Value.object new).canonical = .ok { resource with relationships } ∧
      ∀ name r, kind.relationship? name = some r →
        Members.get? relationships name = Members.get? resource.relationships name := by
  obtain ⟨value, hvalue, named, rfl, hadds⟩ := hputs.exists_get? honce (by decide)
  obtain ⟨hattributes, hid, hheld, htype⟩ := (Resource.ofValue_eq_ok_iff ..).mp h
  obtain ⟨links, hlinks⟩ := hadds.exists_readRelationships hheld
  have hnew : Resource.ofValue (Value.object new).canonical =
      .ok { resource with relationships := links } := by
    apply (Resource.ofValue_eq_ok_iff ..).mpr
    simp only [hvalue, hputs.get?_of_ne (show "attributes" ≠ "relationships" by decide),
      hputs.get?_of_ne (show "id" ≠ "relationships" by decide),
      hputs.get?_of_ne (show "type" ≠ "relationships" by decide)]
    exact ⟨hattributes, hid, hlinks, htype⟩
  refine ⟨links, hnew, fun name r hr => ?_⟩
  have hshown := (Resource.shows_of_ofValue hnew).get?_relationships name
  rw [hvalue, Option.getD_some] at hshown
  rw [(Resource.shows_of_ofValue h).get?_relationships, ← hadds.get?_of_declared hr]
  exact hshown

/-- The same document, but for the linkage of the primary resource under undeclared names. -/
structure Agrees (kind : Kind) (document : Document) (resource : Resource) (other : Document)
    (relationships : Members Linkage) : Prop where
  primary : other.primary = .one { resource with relationships }
  included : other.included = document.included
  declared : ∀ r : Relationship, r.source = kind →
    Members.get? relationships r.name = Members.get? resource.relationships r.name

namespace Agrees

variable {kind : Kind} {document other : Document} {resource : Resource}
  {relationships : Members Linkage} (h : Agrees kind document resource other relationships)

include h

theorem included?_eq : other.included? = document.included? := included?_congr h.included

theorem isIncluded_eq : isIncluded other = isIncluded document := by
  funext target
  rw [isIncluded, isIncluded, h.included?_eq]

theorem linkage_eq {r : Relationship} (hr : r.source = kind) :
    ({ resource with relationships } : Resource).linkage r.name = resource.linkage r.name := by
  rw [Resource.linkage, Resource.linkage, h.declared r hr]

theorem hydrates_eq (r : Relationship) : Hydrates other r = Hydrates document r := by
  funext target record
  simp only [Hydrates, h.included?_eq, hydrate_congr h.included?_eq]

theorem hydratesAll_iff {r : Relationship} (hr : r.source = kind) (records : List Record) :
    HydratesAll other { resource with relationships } r records ↔
      HydratesAll document resource r records := by
  rw [HydratesAll, HydratesAll, h.linkage_eq hr, h.hydrates_eq, h.isIncluded_eq]

theorem settles_iff {r : Relationship} (hr : r.source = kind) (targets : List Record) :
    Settles other { resource with relationships } r targets ↔
      Settles document resource r targets := by
  simp only [Settles, h.hydratesAll_iff hr, stubsOf, h.linkage_eq hr, h.isIncluded_eq]

theorem hydrate_eq : hydrate other kind { resource with relationships } =
    hydrate document kind resource := by
  rw [hydrate_congr h.included?_eq, Document.hydrate_eq, Document.hydrate_eq]
  congr 1
  funext record
  apply foldlM_congr
  intro record r hr
  rw [hydrateRelationship, hydrateRelationship,
    h.linkage_eq ((r.mem_relationships_iff kind).mp hr)]

end Agrees

/-- A relationship settles on one list of targets. -/
theorem Settles.unique {document : Document} {resource : Resource} {r : Relationship}
    {first second : List Record} (hfirst : Settles document resource r first)
    (hsecond : Settles document resource r second) : first = second := by
  have hunique : Relator.RightUnique (Hydrates document r) := by
    rintro target a b ⟨ra, hra, ha⟩ ⟨rb, hrb, hb⟩
    obtain rfl := Option.some.inj (hra.symm.trans hrb)
    exact Except.ok.inj (ha.symm.trans hb)
  obtain ⟨a, ha, rfl⟩ := hfirst
  obtain ⟨b, hb, rfl⟩ := hsecond
  rw [List.right_unique_forall₂' hunique ha.2 hb.2]

/-- The primary resource has remaining targets of several types under this name. -/
def Content.MixedUnder (document : Value) (name : String) : Prop :=
  ∃ relationship, relationship? (primary document) name = some relationship ∧
    ∃ t ∈ remaining document relationship, ∃ u ∈ remaining document relationship, t.1 ≠ u.1

section

variable {body : Bytes} {members : Members Value}
  (hv : Json.readWith (Node.value Node.maxDepth) body = .ok (.object members))
  {document : Document} (hparse : parse body = .ok document) {resource : Resource}
  (hprimary : document.primary = .one resource) {s : Scan} (hscan : scan body = .ok s)

include hv hparse hprimary hscan

theorem get?_relationships_of_parse (name : String) :
    Members.get? resource.relationships name =
      (Content.relationship? (Content.primary (.object members)) name).map Linkage.ofData := by
  have hread := ((parse_eq_ok_iff hv document).mp hparse).1
  rw [hprimary] at hread
  replace hread := Primary.ofValue_eq_one hread
  obtain ⟨data, hdata⟩ := exists_object_of_scan hv hscan hread
  have hshown : Content.primary (.object members) = .object data :=
    congrArg (Option.getD · Value.null) hdata
  rw [hdata, Option.getD_some] at hread
  rw [(Resource.shows_of_ofValue hread).get?_relationships, hshown]
  rfl

theorem mixedUnder_iff (name : String) : Content.MixedUnder (.object members) name ↔
    ∃ linkage, (name, linkage) ∈ resource.relationships ∧
      Outstanding.mixed? (Outstanding.missing s.targets linkage) ≠ none := by
  have hnodup := (scan_agrees hparse hprimary hscan).2.1.nodup_names
  have hmem : ∀ linkage, (name, linkage) ∈ resource.relationships ↔
      ∃ relationship, Content.relationship? (Content.primary (.object members)) name =
        some relationship ∧ Linkage.ofData relationship = linkage := by
    intro linkage
    rw [← Option.map_eq_some_iff, ← get?_relationships_of_parse hv hparse hprimary hscan]
    exact (Members.get?_eq_some_iff hnodup name linkage).symm
  have hmixed : ∀ relationship,
      Outstanding.mixed? (Outstanding.missing s.targets (Linkage.ofData relationship)) ≠ none ↔
        ∃ t ∈ Content.remaining (.object members) relationship,
          ∃ u ∈ Content.remaining (.object members) relationship, t.1 ≠ u.1 := by
    intro relationship
    rw [scan_eq hv hscan, missing_ofData, ne_eq, Outstanding.mixed?_eq_none_iff]
    simp
  constructor
  · rintro ⟨relationship, hget, h⟩
    exact ⟨_, (hmem _).mpr ⟨relationship, hget, rfl⟩, (hmixed relationship).mpr h⟩
  · rintro ⟨linkage, hlinkage, h⟩
    obtain ⟨relationship, hget, rfl⟩ := (hmem linkage).mp hlinkage
    exact ⟨relationship, hget, (hmixed relationship).mp h⟩

/-- The entries of the primary resource can be listed if no relationship is mixed. -/
theorem exists_entries_iff :
    (∃ entries, outstandingOf s.targets ⟨resource.id, resource.relationships⟩ = .ok entries) ↔
      ∀ name, ¬ Content.MixedUnder (.object members) name := by
  rw [exists_outstandingOf_iff]
  simp only [mixedUnder_iff hv hparse hprimary hscan, Prod.forall]
  simp

/-- A kind declares no relationship that is mixed where the record was built. -/
theorem undeclared_of_mixedUnder {kind : Kind} {record : Record}
    (hrecord : primaryRecord document kind resource = .ok record) {name : String}
    (h : Content.MixedUnder (.object members) name) : kind.relationship? name = none := by
  obtain ⟨linkage, hlinkage, hmixed⟩ := (mixedUnder_iff hv hparse hprimary hscan name).mp h
  have hget := (Members.get?_eq_some_iff
    (scan_agrees hparse hprimary hscan).2.1.nodup_names name linkage).mpr hlinkage
  have hlinked : resource.linkage name = linkage := by rw [Resource.linkage, hget, Option.getD_some]
  exact undeclared_of_mixed hrecord (hlinked ▸ hmixed)

/-- Where a relationship is mixed, listing fails and tells one that is. -/
theorem outstanding_of_mixedUnder (hid : resource.id.isSome) {name : String}
    (h : Content.MixedUnder (.object members) name) :
    ∃ name first second, Content.MixedUnder (.object members) name ∧
      outstanding body = .error (.mixedTargets name first second) := by
  have hs := (scan_agrees hparse hprimary hscan).1
  have hiff := mixedUnder_iff hv hparse hprimary hscan
  have hunlistable : ∃ scanned ∈ s.primary, ¬ Listable s.targets scanned := by
    obtain ⟨linkage, hlinkage, hmixed⟩ := (hiff name).mp h
    refine ⟨⟨resource.id, resource.relationships⟩, by rw [hs]; exact List.mem_singleton_self _, ?_⟩
    intro hlistable
    exact hmixed (hlistable hid (name, linkage) hlinkage)
  obtain ⟨name, first, second, houtstanding⟩ := (outstanding_mixes_iff hscan).mpr hunlistable
  refine ⟨name, first, second, ?_, houtstanding⟩
  rcases outstanding_eq_error houtstanding with ⟨_, _, hfault⟩ |
    ⟨other, hother, scanned, hscanned, m, hm, types, hmixed, hfault⟩
  · cases hfault
  · obtain rfl := Except.ok.inj (hscan.symm.trans hother)
    rw [hs, List.mem_singleton] at hscanned
    subst hscanned
    obtain ⟨rfl, _, _⟩ := Fault.mixedTargets.inj hfault
    exact (hiff m.1).mpr ⟨m.2, hm, by rw [hmixed]; exact Option.some_ne_none types⟩

end

section

variable {kind : Kind} {body body' : Bytes} {old new : Members Value}
  (hv : Json.readWith (Node.value Node.maxDepth) body = .ok (.object old))
  (hv' : Json.readWith (Node.value Node.maxDepth) body' = .ok (.object new))
  (hextends : Extends kind old new)

include hv hv' hextends

/-- The extended document parses to one that agrees on what the kind declares. -/
theorem exists_agrees {document : Document} {resource : Resource}
    (h : Readable kind body document resource) :
    ∃ other relationships, parse body' = .ok other ∧
      Agrees kind document resource other relationships := by
  obtain ⟨s, hscan, _⟩ := h.scanned
  obtain ⟨hprimary, hincluded⟩ := (parse_eq_ok_iff hv document).mp h.parsed
  obtain ⟨held, value, hheld, hvalue, hputs, room, node, scanned, hnode, hread⟩ :=
    exists_primary_extended hv hextends hscan
  rw [h.primary, hheld, Option.getD_some] at hprimary
  obtain ⟨relationships, hresource, hsame⟩ :=
    exists_resource_extended (Primary.ofValue_eq_one hprimary)
      (Layout.exists_field_of_read hnode hread).1 hputs
  refine ⟨⟨.one { resource with relationships }, document.included⟩, relationships, ?_, rfl, rfl,
    fun r hr => hsame r.name r (hr ▸ r.relationship?_name)⟩
  rw [parse_eq_ok_iff hv', hvalue, hextends.get?_of_ne (by decide)]
  exact ⟨Primary.ofValue_object rfl hresource, hincluded⟩

/-- A document without a primary resource has nothing to extend. -/
theorem readOne_extended_none (h : readOne kind body = .ok none) : readOne kind body' = .ok none := by
  rw [readOne_eq_none, decodeOne_eq_none] at h ⊢
  obtain ⟨document, hparse, hempty⟩ := h
  obtain ⟨hprimary, hincluded⟩ := (parse_eq_ok_iff hv document).mp hparse
  refine ⟨document, (parse_eq_ok_iff hv' document).mpr ?_, hempty⟩
  rw [hextends.get?_of_ne (show "included" ≠ "data" by decide)]
  rcases hextends.get?_cases with hsame | ⟨_, old, _, hheld, _⟩
  · rw [hsame]
    exact ⟨hprimary, hincluded⟩
  · rw [hheld, hempty] at hprimary
    exact absurd hprimary (Primary.ofValue_ne_empty rfl)

/-- Without mixed relationships the extended document gives the same record. -/
theorem readOne_extended {record : Record} (h : readOne kind body = .ok (some record))
    (hunmixed : ∀ name, ¬ Content.MixedUnder (.object new) name) :
    readOne kind body' = .ok (some record) := by
  obtain ⟨document, resource, hreadable⟩ := readable_of_readOne h
  obtain ⟨other, relationships, hother, hagrees⟩ := exists_agrees hv hv' hextends hreadable
  obtain ⟨_, hscan, _⟩ := hreadable.scanned
  obtain ⟨s, hscan⟩ := exists_scan_extended hv hv' hextends hscan
  have hextended : Readable kind body' other { resource with relationships } :=
    ⟨hother, hagrees.primary, hreadable.type, hreadable.id,
      hagrees.hydrate_eq ▸ hreadable.hydrated, s, hscan,
      (exists_entries_iff hv' hother hagrees.primary hscan).mpr hunmixed⟩
  obtain ⟨attributes, targets, hread, hattributes, hsettles, hforeign⟩ :=
    readOne_of_readable hreadable
  obtain ⟨attributes', targets', hread', hattributes', hsettles', hforeign'⟩ :=
    readOne_of_readable hextended
  obtain rfl := Option.some.inj (Except.ok.inj (h.symm.trans hread))
  obtain rfl : attributes' = attributes := Except.ok.inj (hattributes'.symm.trans hattributes)
  -- Relationship by relationship: a declared one settles as before, and others have no targets.
  have htargets : targets' = targets := by
    funext r
    by_cases hr : r.source = kind
    · exact ((hagrees.settles_iff hr _).mp (hsettles' r hr)).unique (hsettles r hr)
    · rw [hforeign r hr, hforeign' r hr]
  rw [hread', htargets]

/-- A mixed relationship is an undeclared one that was not mixed before. Where there is one, the
extended document cannot be read, and the fault names one. -/
theorem readOne_of_mixedUnder {record : Record} (h : readOne kind body = .ok (some record)) :
    (∀ name, Content.MixedUnder (.object new) name →
        kind.relationship? name = none ∧ ¬ Content.MixedUnder (.object old) name) ∧
      ((∃ name, Content.MixedUnder (.object new) name) → ∃ name first second,
        Content.MixedUnder (.object new) name ∧
          readOne kind body' = .error (.mixedTargets name first second)) := by
  obtain ⟨document, resource, hreadable⟩ := readable_of_readOne h
  obtain ⟨other, relationships, hother, hagrees⟩ := exists_agrees hv hv' hextends hreadable
  obtain ⟨s, hscan, hentries⟩ := hreadable.scanned
  obtain ⟨s', hscan'⟩ := exists_scan_extended hv hv' hextends hscan
  obtain ⟨held, hheld⟩ := hreadable.hydrated
  have hrecord : primaryRecord other kind { resource with relationships } = .ok held :=
    (primaryRecord_eq_ok ..).mpr
      ⟨hreadable.type, hreadable.id, hagrees.hydrate_eq.trans hheld⟩
  refine ⟨fun name hmixed => ⟨?_, ?_⟩, ?_⟩
  · exact undeclared_of_mixedUnder hv' hother hagrees.primary hscan' hrecord hmixed
  · exact (exists_entries_iff hv hreadable.parsed hreadable.primary hscan).mp hentries name
  · rintro ⟨name, hmixed⟩
    obtain ⟨id, _, hid⟩ := hreadable.exists_id
    obtain ⟨name, first, second, hunder, houtstanding⟩ :=
      outstanding_of_mixedUnder hv' hother hagrees.primary hscan'
        (Option.isSome_iff_exists.mpr ⟨id, hid⟩) hmixed
    have hdecode : decodeOne kind body' = .ok (some held) :=
      (decodeOne_eq_some ..).mpr ⟨other, _, hother, hagrees.primary, hrecord⟩
    refine ⟨name, first, second, hunder, (bind_eq_error ..).mpr (.inr ⟨some held, hdecode, ?_⟩)⟩
    exact (bind_eq_error ..).mpr (.inl houtstanding)

end

end ResearchRecords.Document
