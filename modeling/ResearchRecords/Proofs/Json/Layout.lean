import ResearchRecords.Proofs.Json.Tree

/-!
Records read from a tree. When every field puts what it stands for into the record by one step, a
record that can be read is the fold of these steps over the members of the tree. An object whose
known names are not repeated can be read whenever each known field can.
-/
namespace ResearchRecords.Json

open Results

/-- The value can be read wherever it stands. -/
def CanRead {α : Type} (read : Nat → Node → Except Fault α) (v : Value) : Prop :=
  ∀ room node, node.value room = .ok v → ∃ a, read room node = .ok a

theorem Node.exists_optional {α : Type} {read : Node → Except Fault α} {node : Node}
    (h : ∃ a, read node = .ok a) : ∃ a?, optional read node = .ok a? := by
  obtain ⟨a, ha⟩ := h
  cases node with
  | null => exact ⟨none, rfl⟩
  | _ => exact ⟨some a, (map_eq_ok ..).mpr ⟨a, ha, rfl⟩⟩

namespace Layout

variable {σ : Type} {layout : Layout σ} {room : Nat}

def names (layout : Layout σ) : List String := layout.fields.map Field.name

/-- The field that a member of this name is read by. -/
def field? (layout : Layout σ) (name : String) : Option (Field σ) :=
  layout.fields.find? (·.name == name)

theorem not_mem_names_of_field? {name : String} (h : layout.field? name = none) :
    name ∉ layout.names := by
  intro hmem
  obtain ⟨field, hfield, heq⟩ := List.mem_map.mp hmem
  have := List.find?_eq_none.mp h field hfield
  simp [heq] at this

theorem mem_of_field? {name : String} {field : Field σ} (h : layout.field? name = some field) :
    field ∈ layout.fields ∧ field.name = name :=
  ⟨List.mem_of_find?_eq_some h, by simpa using List.find?_some h⟩

/-- One member: it is passed over, or read by its field when no other member was. -/
theorem readMembers_cons_eq_ok (key : List Piece) (node : Node) (rest : List (List Piece × Node))
    (seen : List String) (record : σ) (out : List String × σ) :
    layout.readMembers room ((key, node) :: rest) seen record = .ok out ↔
      ∃ name, decodePieces key = .ok name ∧
        (layout.field? name = none ∧ node.skip = .ok () ∧
            layout.readMembers room rest seen record = .ok out ∨
          ∃ field next, layout.field? name = some field ∧ name ∉ seen ∧
            field.read room node record = .ok next ∧
            layout.readMembers room rest (name :: seen) next = .ok out) := by
  rw [readMembers, bind_eq_ok]
  refine exists_congr fun name => and_congr_right fun _ => ?_
  rw [field?]
  cases layout.fields.find? (·.name == name) with
  | none => cases node.skip <;> simp
  | some field =>
    by_cases hseen : name ∈ seen
    · simp [hseen, bind, Except.bind, throw, throwThe, MonadExceptOf.throw]
    · cases hread : field.read room node record with
      | error fault => simp [hseen, hread, bind, Except.bind]
      | ok next => simp [hseen, hread, bind, Except.bind]

/-- One member whose value is known. -/
theorem readMembers_cons_iff {key : List Piece} {node : Node} {name : String} {v : Value}
    (hname : decodePieces key = .ok name) (hnode : node.value room = .ok v)
    (rest : List (List Piece × Node)) (seen : List String) (record : σ)
    (out : List String × σ) :
    layout.readMembers room ((key, node) :: rest) seen record = .ok out ↔
      (layout.field? name = none ∧ layout.readMembers room rest seen record = .ok out) ∨
        ∃ field next, layout.field? name = some field ∧ name ∉ seen ∧
          field.read room node record = .ok next ∧
          layout.readMembers room rest (name :: seen) next = .ok out := by
  simp [readMembers_cons_eq_ok, hname, Node.skip_of_value node hnode]

/-- Every field that can be read puts what is under its name into the record by this step, which
does nothing for other names. -/
structure ReadsBy (layout : Layout σ) (room : Nat) (step : σ → String × Value → σ) : Prop where
  known : ∀ field ∈ layout.fields, ∀ node record record',
    field.read room node record = .ok record' → record' = step record (field.name, node.outline)
  other : ∀ name v record, name ∉ layout.names → step record (name, v) = record

theorem ReadsBy.readMembers_eq {step : σ → String × Value → σ} (h : layout.ReadsBy room step)
    {members : List (List Piece × Node)} {seen seen' : List String} {record record' : σ}
    (hread : layout.readMembers room members seen record = .ok (seen', record')) :
    record' = (Node.outlineMembers members).foldl step record := by
  induction members generalizing seen record with
  | nil =>
    rw [readMembers] at hread
    cases hread
    rfl
  | cons m members ih =>
    obtain ⟨key, node⟩ := m
    obtain ⟨name, hname, hread⟩ := (readMembers_cons_eq_ok ..).mp hread
    rw [Node.outlineMembers_cons hname, List.foldl_cons]
    rcases hread with ⟨hunknown, _, hrest⟩ | ⟨field, next, hknown, _, hnext, hrest⟩
    · rw [h.other name node.outline record (not_mem_names_of_field? hunknown)]
      exact ih hrest
    · obtain ⟨hfield, hfieldName⟩ := mem_of_field? hknown
      have hstep := h.known field hfield node record next hnext
      rw [hfieldName] at hstep
      rw [← hstep]
      exact ih hrest

theorem ReadsBy.readObject_eq {step : σ → String × Value → σ} (h : layout.ReadsBy room step)
    {members : List (List Piece × Node)} {ending : ObjectEnd} {record : σ}
    (hread : layout.readObject room members ending = .ok record) :
    record = (Node.outlineMembers members).foldl step layout.blank := by
  simp only [readObject, bind_eq_ok, pure_eq_ok] at hread
  obtain ⟨⟨seen, record'⟩, hmembers, _, _, _, _, rfl⟩ := hread
  exact h.readMembers_eq hmembers

/-- A list is read against the names of the fields in their order. -/
theorem ReadsBy.readItems_eq {step : σ → String × Value → σ} (h : layout.ReadsBy room step)
    {ending : ListEnd} {fields : List (Field σ)} (hfields : ∀ f ∈ fields, f ∈ layout.fields)
    {items : List Node} {count : Nat} {record record' : σ}
    (hread : layout.readItems room ending fields count items record = .ok record') :
    items.length ≤ fields.length ∧
      record' = ((fields.map Field.name).zip (items.map Node.outline)).foldl step record := by
  induction items generalizing fields count record with
  | nil =>
    induction fields generalizing count with
    | nil =>
      simp only [readItems, bind_eq_ok, pure_eq_ok] at hread
      obtain ⟨_, _, rfl⟩ := hread
      exact ⟨Nat.le_refl _, rfl⟩
    | cons field fields ih =>
      simp only [readItems, bind_eq_ok] at hread
      obtain ⟨_, _, hread⟩ := hread
      split at hread
      · have hrest := ih (fun f hf => hfields f (List.mem_cons_of_mem _ hf)) hread
        exact ⟨Nat.zero_le _, by simpa using hrest.2⟩
      · exact (throw_ne_ok _ _ hread).elim
  | cons node items ih =>
    cases fields with
    | nil => simp [readItems] at hread
    | cons field fields =>
      obtain ⟨hfield, hrest⟩ := List.forall_mem_cons.mp hfields
      simp only [readItems, bind_eq_ok] at hread
      obtain ⟨record₁, hrecord₁, hread⟩ := hread
      have hstep := h.known field hfield node record record₁ hrecord₁
      obtain ⟨hlength, heq⟩ := ih hrest hread
      refine ⟨Nat.succ_le_succ hlength, ?_⟩
      rw [heq, hstep]
      rfl

/-- Values that a layout can be read from: objects, and lists no longer than its fields. -/
def Accepts (layout : Layout σ) (v : Value) : Prop :=
  (∃ members, v = .object members) ∨
    ∃ items, v = .array items ∧ items.length ≤ layout.fields.length

theorem ReadsBy.read_eq {step : σ → String × Value → σ} (h : ∀ room, layout.ReadsBy room step)
    {node : Node} {record : σ} (hread : layout.read room node = .ok record) :
    layout.Accepts node.outline ∧
      record = (node.outline.members layout.names).foldl step layout.blank := by
  cases node with
  | object members ending =>
    simp only [read, bind_eq_ok, Node.enter_eq_ok] at hread
    obtain ⟨inner, _, hread⟩ := hread
    exact ⟨.inl ⟨_, rfl⟩, (h inner).readObject_eq hread⟩
  | list items ending =>
    simp only [read, bind_eq_ok, Node.enter_eq_ok] at hread
    obtain ⟨inner, _, hread⟩ := hread
    obtain ⟨hlength, heq⟩ := (h inner).readItems_eq (fun _ hf => hf) hread
    rw [Node.outline, Node.outlineItems_eq]
    exact ⟨.inr ⟨_, rfl, by rwa [List.length_map]⟩, heq⟩
  | _ => simp [read] at hread

/-- An object that is read and used at once. -/
theorem map_read_object (layout : Layout σ) (room : Nat) {α : Type} (f : σ → α)
    (members : List (List Piece × Node)) (ending : ObjectEnd) :
    (do return f (← layout.readObject (← Node.enter room) members ending)) =
      f <$> layout.read room (.object members ending) := by
  rw [read]
  cases Node.enter room with
  | error fault => rfl
  | ok inner =>
    show (layout.readObject inner members ending >>= fun record => pure (f record)) =
      f <$> layout.readObject inner members ending
    cases layout.readObject inner members ending <;> rfl

/-- Every name that a field is read by is given once at most. -/
def Once (layout : Layout σ) (values : Members Value) : Prop :=
  ∀ name ∈ layout.names, (Members.names values).count name ≤ 1

theorem once_of_nodup {values : Members Value} (h : (Members.names values).Nodup) :
    layout.Once values :=
  fun _ _ => List.nodup_iff_count_le_one.mp h _

/-- A member under a name that is given once is the one that is found. -/
theorem Once.get?_eq_some {values : Members Value} (h : layout.Once values) {name : String}
    (hname : name ∈ layout.names) {v : Value} (hmem : (name, v) ∈ values) :
    Members.get? values name = some v := by
  obtain ⟨before, after, rfl⟩ := List.append_of_mem hmem
  have hcount := h name hname
  rw [Members.names, List.map_append, List.map_cons, List.count_append,
    List.count_cons_self] at hcount
  have hafter : Members.get? after name = none := by
    rw [Members.get?_eq_none_iff, ← List.count_eq_zero, Members.names]
    omega
  rw [Members.get?_append, Members.get?_cons, hafter, if_pos rfl]
  rfl

/-- Every member could be read, or passed over, and names that are read occur once. -/
theorem of_readMembers {members : List (List Piece × Node)} {seen : List String} {record : σ}
    {out : List String × σ} (hread : layout.readMembers room members seen record = .ok out) :
    (∀ m ∈ members, ∃ name, decodePieces m.1 = .ok name ∧ ∀ field, layout.field? name = some field →
        ∃ record next, field.read room m.2 record = .ok next) ∧
      layout.Once (Node.outlineMembers members) ∧
      ∀ name ∈ layout.names, name ∈ seen → name ∉ Members.names (Node.outlineMembers members) := by
  induction members generalizing seen record with
  | nil => exact ⟨by simp, fun _ _ => Nat.zero_le _, fun _ _ _ => List.not_mem_nil⟩
  | cons m members ih =>
    obtain ⟨key, node⟩ := m
    obtain ⟨name, hname, hread⟩ := (readMembers_cons_eq_ok ..).mp hread
    rw [Node.outlineMembers_cons hname, List.forall_mem_cons]
    rcases hread with ⟨hunknown, _, hrest⟩ | ⟨field, next, hknown, hnew, hnext, hrest⟩
    · obtain ⟨hmembers, honce, hunseen⟩ := ih hrest
      have hne : ∀ other ∈ layout.names, name ≠ other := fun other hother heq =>
        not_mem_names_of_field? hunknown (heq ▸ hother)
      refine ⟨⟨⟨name, hname, fun field hfield => ?_⟩, hmembers⟩, fun other hother => ?_,
        fun other hother hseen hmem => ?_⟩
      · rw [hunknown] at hfield
        cases hfield
      · rw [Members.names, List.map_cons, List.count_cons_of_ne (hne other hother)]
        exact honce other hother
      · exact (List.mem_cons.mp hmem).elim (fun heq => hne other hother heq.symm)
          (hunseen other hother hseen)
    · obtain ⟨hmembers, honce, hunseen⟩ := ih hrest
      refine ⟨⟨⟨name, hname, fun other hother => ?_⟩, hmembers⟩, fun other hother => ?_,
        fun other hother hseen hmem => ?_⟩
      · obtain rfl := Option.some.inj (hknown.symm.trans hother)
        exact ⟨record, next, hnext⟩
      · by_cases heq : name = other
        · -- No later member has the name, which has now been seen.
          have hlater := hunseen other hother (heq ▸ List.mem_cons_self ..)
          rw [Members.names, List.map_cons, heq, List.count_cons_self, ← Members.names,
            List.count_eq_zero.mpr hlater]
        · rw [Members.names, List.map_cons, List.count_cons_of_ne heq]
          exact honce other hother
      · rcases List.mem_cons.mp hmem with rfl | hmem
        · exact hnew hseen
        · exact hunseen other hother (List.mem_cons_of_mem _ hseen) hmem

/-- Members can be read in this order if each can be read or passed over and names that are read occur
once. -/
theorem exists_readMembers {members : List (List Piece × Node)}
    (hmembers : ∀ m ∈ members, ∃ name, decodePieces m.1 = .ok name ∧ m.2.skip = .ok () ∧
      ∀ field, layout.field? name = some field →
        ∀ record, ∃ next, field.read room m.2 record = .ok next)
    (honce : layout.Once (Node.outlineMembers members)) {seen : List String}
    (hseen : ∀ name ∈ layout.names, name ∈ seen →
      name ∉ Members.names (Node.outlineMembers members)) (record : σ) :
    ∃ out, layout.readMembers room members seen record = .ok out := by
  induction members generalizing seen record with
  | nil => exact ⟨_, rfl⟩
  | cons m members ih =>
    obtain ⟨key, node⟩ := m
    obtain ⟨⟨name, hname, hskip, hfield⟩, hrest⟩ := List.forall_mem_cons.mp hmembers
    rw [Node.outlineMembers_cons hname] at honce hseen
    have honce' : layout.Once (Node.outlineMembers members) := fun other hother =>
      (List.count_le_count_cons ..).trans (honce other hother)
    have hunseen : ∀ other ∈ layout.names, other ∈ seen →
        other ∉ Members.names (Node.outlineMembers members) :=
      fun other hother hin hmem => hseen other hother hin (List.mem_cons_of_mem _ hmem)
    cases hfind : layout.field? name with
    | none =>
      obtain ⟨out, hout⟩ := ih hrest honce' hunseen record
      exact ⟨out, (readMembers_cons_eq_ok ..).mpr ⟨name, hname, .inl ⟨hfind, hskip, hout⟩⟩⟩
    | some field =>
      -- The name joins those seen; no later member has it.
      obtain ⟨hmem, heq⟩ := mem_of_field? hfind
      have hknown : name ∈ layout.names := heq ▸ List.mem_map_of_mem hmem
      have hlater : name ∉ Members.names (Node.outlineMembers members) := by
        have hcount := honce name hknown
        rw [Members.names, List.map_cons, List.count_cons_self] at hcount
        exact List.count_eq_zero.mp (Nat.le_zero.mp (Nat.le_of_succ_le_succ hcount))
      obtain ⟨next, hnext⟩ := hfield field hfind record
      have hnew : name ∉ seen := fun hin => hseen name hknown hin (List.mem_cons_self ..)
      have hseen₁ : ∀ other ∈ layout.names, other ∈ name :: seen →
          other ∉ Members.names (Node.outlineMembers members) := by
        intro other hother hin
        rcases List.mem_cons.mp hin with rfl | hin
        · exact hlater
        · exact hunseen other hother hin
      obtain ⟨out, hout⟩ := ih hrest honce' hseen₁ next
      exact ⟨out, (readMembers_cons_eq_ok ..).mpr
        ⟨name, hname, .inr ⟨field, next, hfind, hnew, hnext, hout⟩⟩⟩

theorem requireSeen_of_never (hnever : ∀ f ∈ layout.fields, f.presence = .never)
    (seen : List String) : layout.requireSeen seen = .ok () := by
  have hfind : layout.fields.find? (fun f => f.presence == .always && !seen.contains f.name) =
      none := by
    apply List.find?_eq_none.mpr
    intro f hf
    simp [hnever f hf]
  rw [requireSeen, hfind]

theorem exists_readObject_iff (hnever : ∀ f ∈ layout.fields, f.presence = .never)
    (members : List (List Piece × Node)) :
    (∃ record, layout.readObject room members .closed = .ok record) ↔
      ∃ out, layout.readMembers room members [] layout.blank = .ok out := by
  simp only [readObject, bind_eq_ok, pure_eq_ok, refuse_eq_ok]
  constructor
  · rintro ⟨_, out, hout, _⟩
    exact ⟨out, hout⟩
  · rintro ⟨out, hout⟩
    exact ⟨out.2, out, hout, (), rfl, (), requireSeen_of_never hnever _, rfl⟩

/-- An object that was read gives the known names once, and what is under each was read by the field
of this name. -/
theorem exists_field_of_read {node : Node} {values : Members Value}
    (hv : node.value room = .ok (.object values)) {record : σ}
    (hread : layout.read room node = .ok record) :
    layout.Once values ∧ ∀ name ∈ layout.names, ∀ v, Members.get? values name = some v →
      ∃ field ∈ layout.fields, field.name = name ∧ ∃ room node before after,
        node.value room = .ok v ∧ field.read room node before = .ok after := by
  cases node with
  | object members ending =>
    obtain ⟨inner, values, hroom, hvalues, _, heq⟩ := Node.value_object hv
    obtain rfl := Value.object.inj heq
    simp only [read, bind_eq_ok, hroom, Node.enter_eq_ok, readObject] at hread
    obtain ⟨_, hinner, ⟨seen, record⟩, hmembers, _⟩ := hread
    obtain rfl := Nat.succ.inj hinner
    obtain ⟨hreads, honce, _⟩ := of_readMembers hmembers
    rw [Node.outlineMembers_of_value members hvalues] at honce
    rw [Node.valueMembers_iff] at hvalues
    refine ⟨honce, fun name hname v hget => ?_⟩
    obtain ⟨m, hm, hdecoded, hnode⟩ :=
      exists_mem_of_forall₂ hvalues.flip (Members.mem_of_get?_eq_some hget)
    obtain ⟨other, hother, hread⟩ := hreads m hm
    obtain rfl := Except.ok.inj (hdecoded.symm.trans hother)
    cases hfind : layout.field? name with
    | none => exact absurd hname (not_mem_names_of_field? hfind)
    | some field =>
      obtain ⟨hfield, heq⟩ := mem_of_field? hfind
      obtain ⟨before, after, hafter⟩ := hread field hfind
      exact ⟨field, hfield, heq, inner, m.2, before, after, hnode, hafter⟩
  | _ => simp [Node.value] at hv

theorem exists_readObject_eq_ok {members : List (List Piece × Node)} {values : Members Value}
    (hvalues : Node.valueMembers room members = .ok values) (honce : layout.Once values)
    (hnever : ∀ f ∈ layout.fields, f.presence = .never)
    (hfields : ∀ field ∈ layout.fields, ∀ v, (field.name, v) ∈ values →
      ∀ node, node.value room = .ok v → ∀ record, ∃ record',
        field.read room node record = .ok record') :
    ∃ record, layout.readObject room members .closed = .ok record := by
  rw [exists_readObject_iff hnever]
  rw [← Node.outlineMembers_of_value members hvalues] at honce
  rw [Node.valueMembers_iff] at hvalues
  refine exists_readMembers (fun m hm => ?_) honce
    (fun _ _ hin => absurd hin List.not_mem_nil) layout.blank
  obtain ⟨v, hv, hdecoded, hnode⟩ := exists_mem_of_forall₂ hvalues hm
  refine ⟨v.1, hdecoded, Node.skip_of_value m.2 hnode, fun field hfind => ?_⟩
  obtain ⟨hfield, heq⟩ := mem_of_field? hfind
  exact hfields field hfield v.2 (heq ▸ hv) m.2 hnode

/-- An object whose known names are not repeated can be read if each known field can. -/
theorem canRead_object {values : Members Value} (honce : layout.Once values)
    (hnever : ∀ f ∈ layout.fields, f.presence = .never)
    (hfields : ∀ field ∈ layout.fields, ∀ v, Members.get? values field.name = some v →
      ∀ record, CanRead (fun room node => field.read room node record) v) :
    CanRead layout.read (.object values) := by
  intro room node hv
  cases node with
  | object members ending =>
    obtain ⟨inner, values, rfl, hvalues, hending, heq⟩ := Node.value_object hv
    obtain rfl := Value.object.inj heq
    obtain rfl := ObjectEnd.eq_closed hending
    obtain ⟨record, hread⟩ := exists_readObject_eq_ok hvalues honce hnever
      fun field hfield v hmem node hvalue record =>
        hfields field hfield v (honce.get?_eq_some (List.mem_map_of_mem hfield) hmem) record inner
          node hvalue
    exact ⟨record, (bind_eq_ok ..).mpr ⟨inner, rfl, hread⟩⟩
  | _ => simp [Node.value] at hv

end Layout

end ResearchRecords.Json
