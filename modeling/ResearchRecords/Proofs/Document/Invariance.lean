import ResearchRecords.Proofs.Document.Concordance
import ResearchRecords.Proofs.Document.Rearranged

/-!
What is read from a response does not depend on its order. Documents that differ in the order of
members and of what is included have the same under every name, up to a permutation of what is
included. A record is built from the included resource of each type and id, and the scan asks only
which types and ids are included. So the permutation makes no difference when no two included
resources have the same type and id.
-/
namespace ResearchRecords.Document

open Json (Value Members Node Layout Piece Reordered Permuted)
open Results

theorem eq_of_nodup_filterMap {α β : Type} {key : α → Option β} {xs : List α}
    (hnodup : (xs.filterMap key).Nodup) {a b : α} (ha : a ∈ xs) (hb : b ∈ xs) {k : β}
    (hka : key a = some k) (hkb : key b = some k) : a = b := by
  induction xs with
  | nil => cases ha
  | cons x xs ih =>
    have hlater : ∀ {y}, y ∈ xs → key y = some k → key x = some k → False := by
      intro y hy hky hkx
      rw [List.filterMap_cons_some hkx, List.nodup_cons] at hnodup
      exact hnodup.1 (List.mem_filterMap.mpr ⟨y, hy, hky⟩)
    have hrest : (xs.filterMap key).Nodup :=
      hnodup.sublist ((List.sublist_cons_self x xs).filterMap key)
    rcases List.mem_cons.mp ha with rfl | ha'
    · rcases List.mem_cons.mp hb with rfl | hb'
      · rfl
      · exact (hlater hb' hkb hka).elim
    · rcases List.mem_cons.mp hb with rfl | hb'
      · exact (hlater ha' hka hkb).elim
      · exact ih hrest ha' hb'

theorem find?_eq_some_iff_of_unique {α : Type} {p : α → Bool} {xs : List α}
    (hunique : ∀ a ∈ xs, ∀ b ∈ xs, p a = true → p b = true → a = b) (a : α) :
    xs.find? p = some a ↔ a ∈ xs ∧ p a = true := by
  constructor
  · exact fun h => ⟨List.mem_of_find?_eq_some h, List.find?_some h⟩
  · rintro ⟨ha, hpa⟩
    obtain ⟨b, hb⟩ := Option.isSome_iff_exists.mp (List.find?_isSome.mpr ⟨a, ha, hpa⟩)
    rw [hb, hunique a ha b (List.mem_of_find?_eq_some hb) hpa (List.find?_some hb)]

theorem exists_mapM_of_perm {ε α β : Type} {f : α → Except ε β} {xs xs' : List α}
    (hperm : xs.Perm xs') {ys : List β} (h : xs.mapM f = .ok ys) :
    ∃ ys', xs'.mapM f = .ok ys' ∧ ys.Perm ys' := by
  rw [mapM_eq_ok_iff] at h
  obtain ⟨ys', hys', hperm'⟩ := List.perm_comp_forall₂ hperm.symm h
  exact ⟨ys', (mapM_eq_ok_iff ..).mpr hys', hperm'.symm⟩

/-- Values of one canonical form. Of what is included it is the items that have one, in some order. -/
def SameUnder (name : String) (v w : Value) : Prop :=
  w.canonical = v.canonical ∨
    name = "included" ∧ ∃ items items', v = .array items ∧ w = .array items' ∧
      (items.map Value.canonical).Perm (items'.map Value.canonical)

/-- Documents that have the same under every name, as objects or as lists read in this order of names. -/
structure SameContent (v w : Value) : Prop where
  object : ∀ members, v = .object members → ∃ members', w = .object members'
  under : ∀ order name, SameUnder name ((Members.get? (v.members order) name).getD .null)
    ((Members.get? (w.members order) name).getD .null)

theorem SameUnder.canonical_eq {name : String} {v w : Value} (h : SameUnder name v w)
    (hname : name ≠ "included") : w.canonical = v.canonical :=
  h.resolve_right fun hincluded => hname hincluded.1

theorem sameContent_of_canonical {v w : Value} (h : w.canonical = v.canonical) :
    SameContent v w where
  object := by
    rintro members rfl
    rw [Value.canonical_object] at h
    cases w with
    | object members' => exact ⟨members', rfl⟩
    | array items =>
      rw [Value.canonical_array] at h
      cases h
    | _ => cases h
  under order name := by
    refine .inl ?_
    rw [← getD_map_canonical, ← getD_map_canonical, ← Value.get?_members_canonical, h,
      Value.get?_members_canonical]

theorem SamePart.sameUnder {m m' : List Piece × Node} (h : SamePart m m') {name : String}
    (hname : Json.decodePieces m.1 = .ok name) (hdistinct : m.2.outline.Distinct) :
    m'.2.outline.Distinct ∧ SameUnder name m.2.outline m'.2.outline := by
  rcases h.2 with hvalue | ⟨hincluded, hvalue⟩
  · obtain ⟨hdistinct', hcanonical⟩ := hvalue.sameForm hdistinct
    exact ⟨hdistinct', .inl hcanonical⟩
  · obtain ⟨items, items', heq, heq', hitems⟩ := hvalue.outline
    obtain rfl : name = "included" := Except.ok.inj (hname.symm.trans hincluded)
    rw [heq, Value.distinct_array_iff] at hdistinct
    obtain ⟨hdistinct', hperm⟩ := Value.perm_canonicals hitems hdistinct
    rw [heq, heq', Value.distinct_array_iff]
    exact ⟨hdistinct', .inr ⟨rfl, items, items', rfl, rfl, hperm⟩⟩

/-- Documents that differ in order have the same content, and neither has repeated names. -/
theorem SameUpToOrder.sameContent {a b : Node} (h : SameUpToOrder a b)
    (hdistinct : a.outline.Distinct) : b.outline.Distinct ∧ SameContent a.outline b.outline := by
  cases h with
  | reordered h =>
    obtain ⟨hdistinct', hcanonical⟩ := h.sameForm hdistinct
    exact ⟨hdistinct', sameContent_of_canonical hcanonical⟩
  | @parts members members' h =>
    rw [Node.outline] at hdistinct
    rw [Node.outline, Node.outline]
    obtain ⟨hnodup, hvalues⟩ := (Value.distinct_object_iff _).mp hdistinct
    -- A partner has the same name; it is the one found under this name, as names are not repeated.
    have hmatched : Matched (fun m m' : String × Value => m.1 = m'.1 ∧
        (m.2.Distinct → m'.2.Distinct ∧ SameUnder m.1 m.2 m'.2))
          (Node.outlineMembers members) (Node.outlineMembers members') :=
      Json.matched_outlineMembers (fun _ _ => And.left)
        (fun _ _ (hpart : SamePart _ _) _ hname => ⟨rfl, hpart.sameUnder hname⟩) h
    refine ⟨(Value.distinct_object_iff _).mpr ⟨?_, fun m' hm' => ?_⟩,
      fun _ _ => ⟨_, rfl⟩, fun order name => ?_⟩
    · exact (Members.names_perm (fun _ _ => And.left) hmatched).nodup_iff.mp hnodup
    · obtain ⟨m, hm, _, hsame⟩ := hmatched.exists_left hm'
      exact (hsame (hvalues m hm)).1
    · refine getD_of_rel (Members.rel_get? (fun _ _ => And.left) hmatched hnodup name) (.inl rfl) ?_
      intro v w hget hsame
      exact (hsame.2 (hvalues _ (Members.mem_of_get?_eq_some hget))).2

theorem Scan.includedOf_eq (v : Value) : includedOf v =
    (Content.items v).map fun item => .ofMembers (item.members ["type", "id"]) := by
  cases v <;> rfl

theorem SameUnder.perm_items {v w : Value} (h : SameUnder "included" v w) :
    ((Content.items v).map Value.canonical).Perm ((Content.items w).map Value.canonical) := by
  rcases h with hcanonical | ⟨_, items, items', rfl, rfl, hperm⟩
  · rw [← Content.items_canonical, ← Content.items_canonical, hcanonical]
  · exact hperm

/-- What is told by canonical forms is told of the same items in some order. -/
theorem SameUnder.perm_map {v w : Value} (h : SameUnder "included" v w) {β : Type} {f : Value → β}
    (hf : ∀ item : Value, f item.canonical = f item) :
    ((Content.items v).map f).Perm ((Content.items w).map f) := by
  have hmap : ∀ items : List Value, items.map f = (items.map Value.canonical).map f := by
    intro items
    rw [List.map_map]
    exact List.map_congr_left fun item _ => (hf item).symm
  rw [hmap, hmap (Content.items w)]
  exact h.perm_items.map f

theorem SameContent.perm_identities {v w : Value} (h : SameContent v w) :
    (Content.identities v).Perm (Content.identities w) := by
  have hfilterMap : ∀ items : List Value,
      items.filterMap Content.identity? = (items.map Content.identity?).filterMap id := by
    intro items
    rw [List.filterMap_map]
    rfl
  rw [Content.identities, Content.identities, Content.included_eq, Content.included_eq, hfilterMap,
    hfilterMap (Content.items _)]
  exact ((h.under [] "included").perm_map Content.identity?_canonical).filterMap id

theorem SameUnder.perm_includedOf {v w : Value} (h : SameUnder "included" v w) :
    (Scan.includedOf v).Perm (Scan.includedOf w) := by
  rw [Scan.includedOf_eq, Scan.includedOf_eq]
  exact h.perm_map fun item => Identifier.ofMembers_congr (item.get?_members_canonical _)

theorem SameUnder.exists_readIncluded {v w : Value} (h : SameUnder "included" v w)
    {resources : List Resource} (hread : readIncluded v.canonical = .ok resources) :
    ∃ resources', readIncluded w.canonical = .ok resources' ∧ resources.Perm resources' := by
  rcases h with hcanonical | ⟨_, items, items', rfl, rfl, hperm⟩
  · exact ⟨resources, hcanonical ▸ hread, .refl _⟩
  · rw [Value.canonical_array] at hread ⊢
    exact exists_mapM_of_perm hperm hread

theorem SameContent.scan {v w : Value} (h : SameContent v w) :
    (Scan.ofValue w).primary = (Scan.ofValue v).primary ∧
      (Scan.ofValue v).included.Perm (Scan.ofValue w).included := by
  refine ⟨?_, (h.under ["data", "included"] "included").perm_includedOf⟩
  have hdata := (h.under ["data", "included"] "data").canonical_eq (by decide)
  exact (Scan.primaryOf_canonical _).symm.trans
    ((congrArg Scan.primaryOf hdata).trans (Scan.primaryOf_canonical _))

theorem outstandingOf_congr {a b : List Target} (h : ∀ target, a.contains target = b.contains target)
    (resource : ScannedResource) : outstandingOf a resource = outstandingOf b resource := by
  have hlinkage : Outstanding.ofLinkage a = Outstanding.ofLinkage b := by
    funext name linkage
    simp only [Outstanding.ofLinkage, h]
  rw [outstandingOf, outstandingOf, hlinkage]

/-- What is outstanding depends on which types and ids are included, and on nothing else of what is
included. -/
theorem outstandingOfScan_congr {s s' : Scan} (hprimary : s'.primary = s.primary)
    (hincluded : s.included.Perm s'.included) : outstandingOfScan s' = outstandingOfScan s := by
  have htargets : ∀ target, s'.targets.contains target = s.targets.contains target := by
    intro target
    rw [Bool.eq_iff_iff, List.contains_iff_mem, List.contains_iff_mem]
    exact (hincluded.filterMap Identifier.target?).mem_iff.symm
  have hresource : addResource s'.targets = addResource s.targets := by
    funext found resource
    rw [addResource, addResource]
    simp only [outstandingOf_congr htargets]
  rw [outstandingOfScan, outstandingOfScan, hprimary]
  exact congrArg (fun add => s.primary.foldlM add []) hresource

/-- The total as it is told under `meta`. -/
def toldTotal (v : Value) : Option Int := (Json.only?At ["page", "totalRecords"] v).bind integer?

theorem toldTotal_canonical (v : Value) : toldTotal v.canonical = toldTotal v := by
  rw [toldTotal, toldTotal, Json.only?At_canonical]
  cases Json.only?At ["page", "totalRecords"] v with
  | none => rfl
  | some total => exact integer?_canonical total

theorem bind_toldTotal (v : Value) :
    (Json.only?At ["meta", "page", "totalRecords"] v).bind integer? =
      toldTotal ((Json.only? "meta" v).getD .null) := by
  rw [Json.only?At, List.foldlM_cons]
  cases Json.only? "meta" v <;> rfl

theorem SameContent.toldTotal_eq {v w : Value} (h : SameContent v w) (hv : v.IsRecord)
    (hw : w.IsRecord) : (Json.only?At ["meta", "page", "totalRecords"] w).bind integer? =
      (Json.only?At ["meta", "page", "totalRecords"] v).bind integer? := by
  have hmeta := (h.under ["meta"] "meta").canonical_eq (by decide)
  rw [hv.get?_members, hw.get?_members] at hmeta
  rw [bind_toldTotal, bind_toldTotal, ← toldTotal_canonical, hmeta, toldTotal_canonical]

/-- With one included resource at most for a type and an id it does not matter where it stands. -/
theorem included?_eq_of_perm {a b : Document} (hperm : a.included.Perm b.included)
    (hnodup : (a.included.filterMap Resource.identity?).Nodup) : a.included? = b.included? := by
  have hunique : ∀ target : Target, ∀ r ∈ a.included, ∀ s ∈ a.included,
      (r.identity? == some target) = true → (s.identity? == some target) = true → r = s :=
    fun _ r hr s hs hrt hst => eq_of_nodup_filterMap hnodup hr hs (eq_of_beq hrt) (eq_of_beq hst)
  funext target
  rw [included?_eq, included?_eq]
  apply Option.ext
  intro resource
  -- The one that is found is any that has the type and the id, and to be included is all it takes.
  rw [find?_eq_some_iff_of_unique, find?_eq_some_iff_of_unique, List.mem_reverse, List.mem_reverse,
    hperm.mem_iff]
  · simpa only [List.mem_reverse, ← hperm.mem_iff] using hunique target
  · simpa only [List.mem_reverse] using hunique target

theorem filterMap_identity? {values : List Value} {resources : List Resource}
    (h : List.Forall₂ (fun v resource => Resource.ofValue v.canonical = .ok resource)
      values resources) :
    resources.filterMap Resource.identity? = values.filterMap Content.identity? := by
  induction h with
  | nil => rfl
  | @cons v resource _ _ hread _ ih =>
    have hidentity := (Resource.shows_of_ofValue hread).identity?_eq
    rw [Content.identity?_canonical] at hidentity
    rw [List.filterMap_cons, List.filterMap_cons, hidentity, ih]

theorem identities_of_mirrors {document : Document} {members : Members Value}
    (h : Mirrors document (Value.object members).canonical) :
    document.included.filterMap Resource.identity? = Content.identities (.object members) := by
  have hincluded := h.included
  rw [Content.included_canonical, List.forall₂_map_left_iff] at hincluded
  exact filterMap_identity? hincluded

/-- Responses that differ in the order of members and of what is included. No name is given twice in
an object, and no type and id to two of the included resources. -/
structure Rearranges (body body' : Bytes) : Prop where
  ends : (Node.ofTokens (Json.Token.ofBytes body)).2 = false
  ends' : (Node.ofTokens (Json.Token.ofBytes body')).2 = false
  same : SameUpToOrder (Json.root body) (Json.root body')
  distinct : (Json.root body).outline.Distinct
  nodup : (Content.identities (Json.root body).outline).Nodup

namespace Rearranges

variable {body body' : Bytes} (h : Rearranges body body')

include h

theorem content : SameContent (Json.root body).outline (Json.root body').outline :=
  (h.same.sameContent h.distinct).2

theorem symm : Rearranges body' body where
  ends := h.ends'
  ends' := h.ends
  same := h.same.symm
  distinct := (h.same.sameContent h.distinct).1
  nodup := h.content.perm_identities.nodup_iff.mp h.nodup

theorem exists_readWith {α : Type} {read : Nat → Node → Except Json.Fault α}
    (hstable : Json.Stable SameUpToOrder read) {a : α}
    (hread : Json.readWith (read Node.maxDepth) body = .ok a) :
    ∃ b, Json.readWith (read Node.maxDepth) body' = .ok b := by
  obtain ⟨hroot, _⟩ := (Json.readWith_eq_ok_iff ..).mp hread
  obtain ⟨b, hb⟩ := hstable Node.maxDepth _ _ h.same ⟨a, hroot⟩
  exact ⟨b, (Json.readWith_eq_ok_iff ..).mpr ⟨hb, h.ends'⟩⟩

/-- The other response is read with the same primary data, and with the same resource included for
every type and id. -/
theorem exists_parse {document : Document} (hparse : parse body = .ok document) :
    ∃ document', parse body' = .ok document' ∧ document'.primary = document.primary ∧
      document'.included? = document.included? := by
  obtain ⟨members, hv, hmirrors⟩ := exists_members_of_parse hparse
  obtain ⟨hprimary, hincluded⟩ := (parse_eq_ok_iff hv document).mp hparse
  obtain ⟨w, hw⟩ := h.exists_readWith stable_value hv
  have hcontent := h.content
  rw [outline_of_readWith hv, outline_of_readWith hw] at hcontent
  obtain ⟨members', rfl⟩ := hcontent.object members rfl
  obtain ⟨included', hincluded', hperm⟩ :=
    (hcontent.under [] "included").exists_readIncluded hincluded
  have hdata := (hcontent.under [] "data").canonical_eq (by decide)
  have hnodup : (document.included.filterMap Resource.identity?).Nodup := by
    rw [identities_of_mirrors hmirrors, ← outline_of_readWith hv]
    exact h.nodup
  refine ⟨⟨document.primary, included'⟩, (parse_eq_ok_iff hw _).mpr ⟨?_, hincluded'⟩, rfl,
    (included?_eq_of_perm hperm hnodup).symm⟩
  exact (congrArg Primary.ofValue hdata).trans hprimary

theorem decodeOne_eq_ok {kind : Kind} {record? : Option Record}
    (hdecode : decodeOne kind body = .ok record?) : decodeOne kind body' = .ok record? := by
  cases record? with
  | none =>
    obtain ⟨document, hparse, hprimary⟩ := (decodeOne_eq_none ..).mp hdecode
    obtain ⟨document', hparse', hprimary', _⟩ := h.exists_parse hparse
    exact (decodeOne_eq_none ..).mpr ⟨document', hparse', hprimary'.trans hprimary⟩
  | some record =>
    obtain ⟨document, resource, hparse, hprimary, hrecord⟩ := (decodeOne_eq_some ..).mp hdecode
    obtain ⟨document', hparse', hprimary', hincluded⟩ := h.exists_parse hparse
    refine (decodeOne_eq_some ..).mpr
      ⟨document', resource, hparse', hprimary'.trans hprimary, ?_⟩
    rwa [primaryRecord_congr hincluded]

theorem decodeMany_eq_ok {kind : Kind} {records : List Record}
    (hdecode : decodeMany kind body = .ok records) : decodeMany kind body' = .ok records := by
  obtain ⟨document, hparse, hrecords⟩ := (Document.decodeMany_eq_ok ..).mp hdecode
  obtain ⟨document', hparse', hprimary, hincluded⟩ := h.exists_parse hparse
  refine (Document.decodeMany_eq_ok ..).mpr ⟨document', hparse', ?_⟩
  rw [hprimary]
  exact hrecords.imp fun resource record hrecord => by rwa [primaryRecord_congr hincluded]

theorem exists_scan {s : Scan} (hscan : scan body = .ok s) :
    ∃ s', scan body' = .ok s' ∧ s'.primary = s.primary ∧ s.included.Perm s'.included := by
  obtain ⟨s', hscan'⟩ := h.exists_readWith stable_scan hscan
  refine ⟨s', hscan', ?_⟩
  rw [scan_eq_ofValue_outline hscan, scan_eq_ofValue_outline hscan']
  exact h.content.scan

theorem outstanding_eq_ok {found : Members (List Outstanding)}
    (hfound : outstanding body = .ok found) : outstanding body' = .ok found := by
  rw [Document.outstanding_eq_ok] at hfound ⊢
  obtain ⟨s, hscan, hlisted⟩ := hfound
  obtain ⟨s', hscan', hprimary, hincluded⟩ := h.exists_scan hscan
  exact ⟨s', hscan', (outstandingOfScan_congr hprimary hincluded).trans hlisted⟩

theorem readOne_eq_ok {kind : Kind} {record? : Option Record}
    (hread : readOne kind body = .ok record?) : readOne kind body' = .ok record? := by
  cases record? with
  | none =>
    rw [readOne_eq_none] at hread ⊢
    exact h.decodeOne_eq_ok hread
  | some record =>
    rw [readOne_eq_some] at hread ⊢
    obtain ⟨held, found, hdecode, hfound, hsettled⟩ := hread
    exact ⟨held, found, h.decodeOne_eq_ok hdecode, h.outstanding_eq_ok hfound, hsettled⟩

theorem readMany_eq_ok {kind : Kind} {records : List Record}
    (hread : readMany kind body = .ok records) : readMany kind body' = .ok records := by
  rw [Document.readMany_eq_ok] at hread ⊢
  obtain ⟨helds, found, hdecode, hfound, hmerged⟩ := hread
  exact ⟨helds, found, h.decodeMany_eq_ok hdecode, h.outstanding_eq_ok hfound, hmerged⟩

theorem total_eq_ok {n : Int} (htotal : total body = .ok n) : total body' = .ok n := by
  have hread : ∃ told, Json.readWith (metaDocumentLayout.read Node.maxDepth) body = .ok told := by
    simp only [total, ofJson, bind_eq_ok, mapError_eq_ok] at htotal
    obtain ⟨told, htold, _⟩ := htotal
    exact ⟨told, htold⟩
  obtain ⟨told, htold⟩ := hread
  obtain ⟨told', htold'⟩ := h.exists_readWith stable_metaDocument htold
  have htotal' : total body' = .ok (told'.join.join.getD unknownTotal) := by
    simp [total, ofJson, Except.mapError, htold']
  obtain ⟨_, hrecord, rfl⟩ := of_total htotal
  obtain ⟨_, hrecord', hn⟩ := of_total htotal'
  rw [htotal', hn, h.content.toldTotal_eq hrecord hrecord']

end Rearranges

end ResearchRecords.Document
