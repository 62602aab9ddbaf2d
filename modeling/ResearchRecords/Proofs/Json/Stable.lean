import ResearchRecords.Proofs.Json.Reordering

/-!
Readers of trees whose members come in any order. A reader is stable if it reads one of two such trees
whenever it reads the other. Readers of lists, of objects under any names, and of records of named
fields are stable if those of the parts are: a record needs its known names once each, and this does
not depend on their order.
-/
namespace ResearchRecords.Json

open Results

namespace Node

variable {α : Type} {read : Nat → Node → Except Fault α}

theorem stable_string : Stable Reordered fun _ => string := by
  rintro _ a b h ⟨s, hs⟩
  cases h with
  | text same => exact ⟨s, same.decodePieces_eq hs⟩
  | _ => simp [string] at hs

theorem stable_optional {R : Node → Node → Prop} (hnull : ∀ a b, R a b → a = .null → b = .null)
    (hread : Stable R read) : Stable R fun room => optional (read room) := by
  rintro room a b h ⟨r, hr⟩
  cases a with
  | null =>
    obtain rfl := hnull _ _ h rfl
    exact ⟨none, rfl⟩
  | _ =>
    obtain ⟨value, hvalue, _⟩ := (map_eq_ok ..).mp hr
    exact exists_optional (hread room _ _ h ⟨value, hvalue⟩)

theorem exists_items_iff (room : Nat) (nodes : List Node) :
    (∃ r, items room read (.list nodes .closed) = .ok r) ↔
      ∃ inner, room = inner + 1 ∧ ∀ node ∈ nodes, ∃ r, read inner node = .ok r := by
  simp only [← exists_mapM_iff, items, bind_eq_ok, enter_eq_ok, refuse_eq_ok, pure_eq_ok]
  constructor
  · rintro ⟨r, inner, hroom, values, hvalues, _⟩
    exact ⟨inner, hroom, values, hvalues⟩
  · rintro ⟨inner, hroom, values, hvalues⟩
    exact ⟨values, inner, hroom, values, hvalues, (), rfl, rfl⟩

/-- Items can be read in any order. -/
theorem stable_items_of_permuted (hread : Stable Reordered read) :
    Stable Permuted fun room => items room read := by
  rintro room _ _ ⟨nodes, nodes', rfl, rfl, hmatched⟩ hitems
  rw [exists_items_iff] at hitems ⊢
  obtain ⟨inner, hroom, hnodes⟩ := hitems
  refine ⟨inner, hroom, fun node' hnode' => ?_⟩
  obtain ⟨node, hnode, hreordered⟩ := hmatched.exists_left hnode'
  exact hread inner _ _ hreordered (hnodes node hnode)

theorem stable_items (hread : Stable Reordered read) :
    Stable Reordered fun room => items room read := by
  intro room a b h hitems
  cases h with
  | list each =>
    exact stable_items_of_permuted hread room _ _ ⟨_, _, rfl, rfl, .of_forall₂ each⟩ hitems
  | _ =>
    obtain ⟨r, hr⟩ := hitems
    simp [items] at hr

theorem exists_members_iff (room : Nat) (nodes : List (List Piece × Node)) :
    (∃ r, members room read (.object nodes .closed) = .ok r) ↔
      ∃ inner, room = inner + 1 ∧ ∀ m ∈ nodes,
        ∃ name a, decodePieces m.1 = .ok name ∧ read inner m.2 = .ok a := by
  have hnodes : ∀ inner, (∃ values, (nodes.mapM fun m => do
        let name ← decodePieces m.1
        return (name, ← read inner m.2)) = .ok values) ↔
      ∀ m ∈ nodes, ∃ name a, decodePieces m.1 = .ok name ∧ read inner m.2 = .ok a := by
    intro inner
    rw [exists_mapM_iff]
    refine forall₂_congr fun m _ => ?_
    simp only [bind_eq_ok, pure_eq_ok]
    constructor
    · rintro ⟨_, name, hname, a, ha, _⟩
      exact ⟨name, a, hname, ha⟩
    · rintro ⟨name, a, hname, ha⟩
      exact ⟨_, name, hname, a, ha, rfl⟩
  simp only [← hnodes, members, bind_eq_ok, enter_eq_ok, refuse_eq_ok]
  constructor
  · rintro ⟨r, inner, hroom, values, hvalues, _⟩
    exact ⟨inner, hroom, values, hvalues⟩
  · rintro ⟨inner, hroom, values, hvalues⟩
    exact ⟨values, inner, hroom, values, hvalues, (), rfl, rfl⟩

theorem stable_members (hread : Stable Reordered read) :
    Stable Reordered fun room => members room read := by
  rintro room a b h ⟨r, hr⟩
  cases h with
  | @object nodes mixed nodes' names each order =>
    obtain ⟨inner, hroom, hnodes⟩ := (exists_members_iff room nodes).mp ⟨r, hr⟩
    refine (exists_members_iff room nodes').mpr ⟨inner, hroom, fun m' hm' => ?_⟩
    have hmatched : Matched SameMember nodes nodes' := ⟨mixed, forall₂_and names each, order⟩
    obtain ⟨m, hm, hname, hreordered⟩ := hmatched.exists_left hm'
    obtain ⟨name, a, hdecoded, ha⟩ := hnodes m hm
    obtain ⟨b, hb⟩ := hread inner _ _ hreordered ⟨a, ha⟩
    exact ⟨name, b, hname.decodePieces_eq hdecoded, hb⟩
  | _ => simp [members] at hr

end Node

theorem Stable.map {R : Node → Node → Prop} {α β : Type} {read : Nat → Node → Except Fault α}
    (h : Stable R read) (f : α → β) : Stable R fun room node => do return f (← read room node) := by
  rintro room a b hab ⟨r, hr⟩
  obtain ⟨value, hvalue, _⟩ := (bind_eq_ok ..).mp hr
  obtain ⟨value', hvalue'⟩ := h room a b hab ⟨value, hvalue⟩
  exact ⟨f value', (bind_eq_ok ..).mpr ⟨value', hvalue', rfl⟩⟩

namespace Field

variable {σ α : Type} {R : Node → Node → Prop} {read : Nat → Node → Except Fault α}

/-- The field is read from the second of two such trees, whatever the record holds, if it is read from
the first. -/
def Stable (R : Node → Node → Prop) (field : Field σ) : Prop :=
  ∀ room a b, R a b → (∃ record next, field.read room a record = .ok next) →
    ∀ record, ∃ next, field.read room b record = .ok next

theorem stable_of_read (h : Json.Stable R read) (name : String) (presence : Presence) :
    Field.Stable R ⟨name, presence, fun room node _ => read room node⟩ :=
  fun room a b hab ⟨_, hread⟩ _ => h room a b hab hread

theorem stable_of_put (h : Json.Stable R read) (name : String) (presence : Presence)
    (put : σ → α → σ) : Field.Stable R
      ⟨name, presence, fun room node record => do return put record (← read room node)⟩ := by
  rintro room a b hab ⟨record, hread⟩ record'
  have hvalue : ∃ value, read room a = .ok value := by
    obtain ⟨next, hnext⟩ := hread
    obtain ⟨value, hvalue, _⟩ := (bind_eq_ok ..).mp hnext
    exact ⟨value, hvalue⟩
  exact (h room a b hab hvalue).imp' (put record') fun value hvalue' =>
    (bind_eq_ok ..).mpr ⟨value, hvalue', rfl⟩

end Field

namespace Layout

variable {σ : Type} {layout : Layout σ} {room : Nat}

/-- An object can be read if one with matching members can, each of which can be read in its place. -/
theorem exists_readObject_of_matched (hnever : ∀ f ∈ layout.fields, f.presence = .never)
    {R : List Piece × Node → List Piece × Node → Prop} (hname : ∀ m m', R m m' → SameText m.1 m'.1)
    (hskip : ∀ m m', R m m' → m'.2.skip = .ok ())
    (hfield : ∀ m m', R m m' → ∀ field ∈ layout.fields, decodePieces m.1 = .ok field.name →
      (∃ record next, field.read room m.2 record = .ok next) →
        ∀ record, ∃ next, field.read room m'.2 record = .ok next)
    {members members' : List (List Piece × Node)} (h : Matched R members members')
    (hread : ∃ record, layout.readObject room members .closed = .ok record) :
    ∃ record, layout.readObject room members' .closed = .ok record := by
  rw [exists_readObject_iff hnever] at hread ⊢
  obtain ⟨out, hout⟩ := hread
  obtain ⟨hmembers, honce, _⟩ := of_readMembers hout
  refine exists_readMembers (fun m' hm' => ?_) (fun name hknown => ?_)
    (fun _ _ hin => absurd hin List.not_mem_nil) layout.blank
  · obtain ⟨m, hm, hR⟩ := h.exists_left hm'
    obtain ⟨name, hdecoded, hreads⟩ := hmembers m hm
    refine ⟨name, (hname m m' hR).decodePieces_eq hdecoded, hskip m m' hR, fun field hfind => ?_⟩
    obtain ⟨hmem, rfl⟩ := mem_of_field? hfind
    exact hfield m m' hR field hmem hdecoded (hreads field hfind)
  · have hmatched := matched_outlineMembers (S := fun m m' => m.1 = m'.1) hname
      (fun _ _ _ _ _ => rfl) h
    have hperm := Members.names_perm (fun _ _ heq => heq) hmatched
    rw [← hperm.count_eq]
    exact honce name hknown

theorem readItems_of_reordered {fields : List (Field σ)}
    (hfields : ∀ field ∈ fields, field.Stable Reordered) {nodes nodes' : List Node}
    (heach : List.Forall₂ Reordered nodes nodes') {count : Nat} {record : σ}
    (hread : ∃ r, layout.readItems room .closed fields count nodes record = .ok r) (record' : σ) :
    ∃ r, layout.readItems room .closed fields count nodes' record' = .ok r := by
  induction heach generalizing fields count record record' with
  | nil =>
    induction fields generalizing count with
    | nil => exact ⟨record', rfl⟩
    | cons field fields ih =>
      obtain ⟨r, hr⟩ := hread
      rw [readItems] at hr ⊢
      by_cases hnever : field.presence = .never
      · rw [if_pos hnever] at hr ⊢
        exact ih (fun f hf => hfields f (List.mem_cons_of_mem _ hf)) ⟨r, hr⟩
      · rw [if_neg hnever] at hr
        exact (throw_ne_ok _ _ hr).elim
  | cons hab _ ih =>
    obtain ⟨r, hr⟩ := hread
    cases fields with
    | nil => cases hr
    | cons field fields =>
      obtain ⟨hfield, hfields⟩ := List.forall_mem_cons.mp hfields
      simp only [readItems, bind_eq_ok] at hr ⊢
      obtain ⟨next, hnext, hrest⟩ := hr
      obtain ⟨next', hnext'⟩ := hfield room _ _ hab ⟨record, next, hnext⟩ record'
      obtain ⟨r', hr'⟩ := ih hfields ⟨r, hrest⟩ next'
      exact ⟨r', next', hnext', hr'⟩

/-- Records of stable fields are stable. -/
theorem stable_read (hnever : ∀ f ∈ layout.fields, f.presence = .never)
    (hfields : ∀ field ∈ layout.fields, field.Stable Reordered) : Stable Reordered layout.read := by
  rintro room a b hab ⟨r, hr⟩
  cases hab with
  | list each =>
    simp only [read, readList, bind_eq_ok, Node.enter_eq_ok] at hr ⊢
    obtain ⟨inner, hroom, hr⟩ := hr
    obtain ⟨r', hr'⟩ := readItems_of_reordered hfields each ⟨r, hr⟩ layout.blank
    exact ⟨r', inner, hroom, hr'⟩
  | object names each order =>
    simp only [read, bind_eq_ok, Node.enter_eq_ok] at hr ⊢
    obtain ⟨inner, hroom, hr⟩ := hr
    obtain ⟨r', hr'⟩ := exists_readObject_of_matched hnever (fun _ _ => And.left)
      (fun _ _ hm => hm.2.skip_eq)
      (fun m m' hm field hfield _ hread => hfields field hfield inner m.2 m'.2 hm.2 hread)
      ⟨_, forall₂_and names each, order⟩ ⟨r, hr⟩
    exact ⟨r', inner, hroom, hr'⟩
  | _ => simp [read] at hr

end Layout

end ResearchRecords.Json
