import ResearchRecords.Proofs.Document.Reachable
import ResearchRecords.Proofs.Document.Receipt

/-!
What the readers of a response accept. A document has to be an object before records are read from it.
The readers of the id and of the total do not ask for objects: as anywhere, a record of one field may
be a list of its one value. Nor is a list always refused where one resource is wanted, since it may be
the list of the fields of a resource.
-/
namespace ResearchRecords

open Results

namespace Json

/-- A reader of nothing but trees of outer form. -/
def ReadsWhole {α : Type} (read : Nat → Node → Except Fault α) : Prop :=
  ∀ room node a, read room node = .ok a → node.skip = .ok ()

theorem ReadsWhole.optional {α : Type} {read : Nat → Node → Except Fault α} (h : ReadsWhole read) :
    ReadsWhole fun room => Node.optional (read room) := by
  intro room node a? hread
  cases node with
  | null => rfl
  | _ =>
    obtain ⟨a, ha, _⟩ := (map_eq_ok ..).mp hread
    exact h room _ a ha

theorem readsWhole_string : ReadsWhole fun _ => Node.string := by
  intro room node s hread
  cases node with
  | text pieces => rfl
  | _ => simp [Node.string] at hread

theorem readsWhole_signed64 : ReadsWhole fun _ => Node.signed64 := by
  intro room node i hread
  cases node with
  | number numeral => rfl
  | _ => simp [Node.signed64, Node.integer] at hread

theorem ListEnd.surplusFault?_eq_none_iff (ending : ListEnd) :
    ending.surplusFault? = none ↔ ending.fault? = none := by
  cases ending <;> simp [ListEnd.surplusFault?, ListEnd.fault?]

namespace Layout

variable {σ : Type} {layout : Layout σ}

/-- Every field reads trees of outer form. -/
def FieldsWhole (layout : Layout σ) : Prop :=
  ∀ field ∈ layout.fields, ∀ record, ReadsWhole fun room node => field.read room node record

theorem FieldsWhole.skipMembers (h : layout.FieldsWhole) {room : Nat}
    {members : List (List Piece × Node)} {seen : List String} {record : σ} {out : List String × σ}
    (hread : layout.readMembers room members seen record = .ok out) :
    Node.skipMembers members = .ok () := by
  induction members generalizing seen record with
  | nil => rfl
  | cons m rest ih =>
    obtain ⟨key, node⟩ := m
    obtain ⟨name, _, hread⟩ := (readMembers_cons_eq_ok ..).mp hread
    rw [Node.skipMembers, bind_eq_ok]
    rcases hread with ⟨_, hskip, hrest⟩ | ⟨field, next, hknown, _, hnext, hrest⟩
    · exact ⟨(), hskip, ih hrest⟩
    · exact ⟨(), h field (mem_of_field? hknown).1 record room node next hnext, ih hrest⟩

theorem FieldsWhole.skipItems (h : layout.FieldsWhole) {room : Nat} {ending : ListEnd}
    {fields : List (Field σ)} (hfields : ∀ f ∈ fields, f ∈ layout.fields) {items : List Node}
    {count : Nat} {record record' : σ}
    (hread : layout.readItems room ending fields count items record = .ok record') :
    Node.skipItems items = .ok () ∧ ending.skipFault? = none := by
  induction items generalizing fields count record with
  | nil =>
    refine ⟨rfl, ?_⟩
    cases fields with
    | nil =>
      simp only [readItems, bind_eq_ok, refuse_eq_ok] at hread
      obtain ⟨_, hending, _⟩ := hread
      exact ListEnd.skipFault?_eq_none ((ListEnd.surplusFault?_eq_none_iff _).mp hending)
    | cons field fields =>
      simp only [readItems, bind_eq_ok, refuse_eq_ok] at hread
      obtain ⟨_, hending, _⟩ := hread
      exact ListEnd.skipFault?_eq_none hending
  | cons node items ih =>
    cases fields with
    | nil => simp [readItems] at hread
    | cons field fields =>
      obtain ⟨hfield, hrest⟩ := List.forall_mem_cons.mp hfields
      simp only [readItems, bind_eq_ok] at hread
      obtain ⟨next, hnext, hread⟩ := hread
      obtain ⟨hitems, hending⟩ := ih hrest hread
      rw [Node.skipItems, bind_eq_ok]
      exact ⟨⟨(), h field hfield record room node next hnext, hitems⟩, hending⟩

theorem FieldsWhole.readsWhole (h : layout.FieldsWhole) : ReadsWhole layout.read := by
  intro room node record hread
  cases node with
  | object members ending =>
    simp only [read, readObject, bind_eq_ok, refuse_eq_ok] at hread
    obtain ⟨_, _, _, hmembers, _, hending, _⟩ := hread
    obtain rfl := ObjectEnd.eq_closed hending
    simp only [Node.skip, bind_eq_ok, refuse_eq_ok]
    exact ⟨(), h.skipMembers hmembers, rfl⟩
  | list items ending =>
    simp only [read, readList, bind_eq_ok] at hread
    obtain ⟨_, _, hitems⟩ := hread
    obtain ⟨hskip, hending⟩ := h.skipItems (fun _ hf => hf) hitems
    simp only [Node.skip, bind_eq_ok, refuse_eq_ok]
    exact ⟨(), hskip, hending⟩
  | _ => simp [read] at hread

end Layout

/-- What an object has under a name, or the one item of a list. -/
def only? (name : String) : Value → Option Value
  | .object members => Members.get? members name
  | .array [item] => some item
  | _ => none

/-- What stands under these names, each within the value before. -/
def only?At (names : List String) (v : Value) : Option Value :=
  names.foldlM (fun v name => only? name v) v

/-- A value that a record of one field is read from. -/
def Value.IsRecord (v : Value) : Prop :=
  (∃ members, v = .object members) ∨ ∃ items, v = .array items ∧ items.length ≤ 1

theorem Value.IsRecord.get?_members {v : Value} (h : v.IsRecord) (name : String) :
    Members.get? (v.members [name]) name = only? name v := by
  rcases h with ⟨members, rfl⟩ | ⟨items, rfl, hlength⟩
  · rfl
  · match items with
    | [] => rfl
    | [item] => exact (Members.get?_cons ..).trans (by simp [only?])

theorem Value.IsRecord.of_only? {v w : Value} {name : String} (h : only? name v = some w) :
    v.IsRecord := by
  unfold only? at h
  split at h
  · exact .inl ⟨_, rfl⟩
  · exact .inr ⟨_, rfl, Nat.le_refl 1⟩
  · cases h

/-- An object that does not repeat this name, or no object. -/
def Value.GivesOnce (name : String) (v : Value) : Prop :=
  ∀ members, v = .object members → (Members.names members).count name ≤ 1

theorem Value.Distinct.givesOnce {v : Value} (h : v.Distinct) (name : String) :
    v.GivesOnce name := by
  rintro members rfl
  exact List.nodup_iff_count_le_one.mp ((Value.distinct_object_iff members).mp h).1 name

theorem only?_canonical (name : String) (v : Value) :
    only? name v.canonical = (only? name v).map Value.canonical := by
  cases v with
  | object members =>
    rw [Value.canonical_object]
    exact Value.get?_canonicalObject members name
  | array items =>
    rw [Value.canonical_array]
    match items with
    | [] => rfl
    | [item] => rfl
    | _ :: _ :: _ => rfl
  | _ => rfl

theorem only?At_canonical (names : List String) (v : Value) :
    only?At names v.canonical = (only?At names v).map Value.canonical := by
  induction names generalizing v with
  | nil => rfl
  | cons name names ih =>
    rw [only?At, only?At, List.foldlM_cons, List.foldlM_cons, only?_canonical]
    cases only? name v with
    | none => rfl
    | some w => exact ih w

theorem Value.Distinct.only? {v w : Value} (h : v.Distinct) {name : String}
    (hw : only? name v = some w) : w.Distinct := by
  unfold Json.only? at hw
  split at hw
  · obtain ⟨hnodup, hmembers⟩ := (Value.distinct_object_iff _).mp h
    exact hmembers _ (Members.mem_of_get?_eq_some hw)
  · obtain rfl := Option.some.inj hw
    exact (Value.distinct_array_iff _).mp h _ (List.mem_singleton_self _)
  · cases hw

end Json

namespace Document

open Json (Value Members Node Layout CanRead ReadsWhole only? only?At)

/-- A reader that finds this in what the tree stands for. -/
def FindsBy {α : Type} (read : Nat → Node → Except Json.Fault α) (find : Value → Option α) : Prop :=
  find .null = none ∧ ∀ room node a, read room node = .ok a → find node.outline = some a

/-- What is found in the one field of a record, which may be missing or null. -/
def findField {α : Type} (field : String) (find : Value → Option α) (v : Value) :
    Option (Option α) :=
  if v.isNull then none else some ((only? field v).bind find)

theorem join_bind_findField {α : Type} (v? : Option Value) (field : String)
    (find : Value → Option α) :
    (v?.bind (findField field find)).join = v?.bind fun v => (only? field v).bind find := by
  cases v? with
  | none => rfl
  | some v =>
    rw [Option.bind_some, Option.bind_some, findField]
    cases v <;> rfl

theorem findsBy_string : FindsBy (fun _ => Node.string) fun v => textOf (some v) := by
  refine ⟨rfl, fun room node s hread => ?_⟩
  cases node with
  | text pieces =>
    rw [Node.outline, show Json.decodePieces pieces = .ok s from hread]
    rfl
  | _ => simp [Node.string] at hread

/-- The integer that a number stands for. -/
def integer? : Value → Option Int
  | .number n =>
    match n.found with
    | .integer i => some i
    | _ => none
  | _ => none

theorem integer?_canonical (v : Value) : integer? v.canonical = integer? v := by
  cases v <;> rfl

theorem findsBy_signed64 : FindsBy (fun _ => Node.signed64) integer? := by
  refine ⟨rfl, fun room node i hread => ?_⟩
  cases node with
  | number numeral =>
    simp only [Node.signed64, Node.integer, bind_eq_ok] at hread
    obtain ⟨n, hn, hread⟩ := hread
    rw [Node.outline, hn]
    show (match n.found with
      | .integer i => some i
      | _ => none) = some i
    cases hfound : n.found with
    | integer found =>
      rw [hfound] at hread
      dsimp only at hread
      split at hread
      · exact congrArg some ((pure_eq_ok ..).mp hread)
      · exact (throw_ne_ok _ _ hread).elim
    | _ =>
      rw [hfound] at hread
      exact (throw_ne_ok _ _ hread).elim
  | _ => simp [Node.signed64, Node.integer] at hread

section OptionalField

variable {α : Type} {read : Nat → Node → Except Json.Fault α} {find : Value → Option α}

theorem FindsBy.optional (h : FindsBy read find) (room : Nat) (node : Node) (a? : Option α)
    (hread : Node.optional (read room) node = .ok a?) : a? = find node.outline := by
  rcases optional_eq hread with ⟨rfl, rfl⟩ | ⟨a, ha, rfl⟩
  · exact h.1.symm
  · exact (h.2 room node a ha).symm

/-- A record of one field is an object, or a list of one value at most. -/
theorem FindsBy.read_optionalField (h : FindsBy read find) (record field : String) {room : Nat}
    {node : Node} {a? : Option α}
    (hread : (optionalField record field read).read room node = .ok a?) :
    node.outline.IsRecord ∧ a? = (only? field node.outline).bind find := by
  obtain ⟨haccepts, heq⟩ := Layout.ReadsBy.read_eq
    (optionalField_readsBy record field read find h.optional) hread
  have haccepts : node.outline.IsRecord := haccepts
  refine ⟨haccepts, ?_⟩
  rw [heq, ← haccepts.get?_members field]
  exact foldl_optionalStep field find _

theorem FindsBy.optionalField (h : FindsBy read find) (record field : String) :
    FindsBy (optionalField record field read).read (findField field find) := by
  refine ⟨rfl, fun room node a? hread => ?_⟩
  obtain ⟨haccepts, rfl⟩ := h.read_optionalField record field hread
  rcases haccepts with ⟨members, hv⟩ | ⟨items, hv, _⟩
  · rw [hv]
    rfl
  · rw [hv]
    rfl

theorem readsWhole_optionalField (h : ReadsWhole read) (record field : String) :
    ReadsWhole (optionalField record field read).read := by
  apply Layout.FieldsWhole.readsWhole
  intro known hknown held
  obtain rfl := List.mem_singleton.mp hknown
  exact h.optional

theorem CanRead.optional {v : Value} (h : CanRead read v) :
    CanRead (fun room => Node.optional (read room)) v :=
  fun room node hv => Node.exists_optional (h room node hv)

/-- A record of one field is read whenever its field is, or is not there. -/
theorem canRead_optionalField (record field : String) {v : Value} (hrecord : v.IsRecord)
    (honce : v.GivesOnce field)
    (hfield : ∀ w, only? field v = some w → CanRead (fun room => Node.optional (read room)) w) :
    CanRead (optionalField record field read).read v := by
  rcases hrecord with ⟨members, rfl⟩ | ⟨items, rfl, hlength⟩
  · exact canRead_optionalField_object record field read (honce members rfl) hfield
  · intro room node hv
    cases node with
    | list nodes ending =>
      obtain ⟨inner, values, rfl, hvalues, hending, heq⟩ := Node.value_list hv
      obtain rfl := Value.array.inj heq
      rw [Node.valueItems_iff] at hvalues
      match nodes, items, hlength, hvalues with
      | [], [], _, _ =>
        refine ⟨none, (bind_eq_ok ..).mpr ⟨inner, rfl, ?_⟩⟩
        simp [Layout.readList, Layout.readItems, optionalField, hending,
          Json.ListEnd.surplusFault?_eq_none_iff]
      | [first], [item], _, .cons hfirst .nil =>
        obtain ⟨a?, ha⟩ := hfield item rfl inner first hfirst
        refine ⟨a?, (bind_eq_ok ..).mpr ⟨inner, rfl, ?_⟩⟩
        simp [Layout.readList, Layout.readItems, optionalField, ha, hending,
          Json.ListEnd.surplusFault?_eq_none_iff]
      | _ :: _ :: _, _ :: _ :: _, hlength, _ => simp at hlength
    | _ => simp [Node.value] at hv

end OptionalField

/-- The id that is assigned is what stands under `id` in what stands under `data`. -/
theorem of_assignedId {body : Bytes} {id : String} (h : assignedId body = .ok id) :
    Json.readWith Node.skip body = .ok () ∧ (Json.root body).outline.IsRecord ∧ id ≠ "" ∧
      only?At ["data", "id"] (Json.root body).outline = some (.string id) := by
  obtain ⟨id?, hread, hjoin, hne⟩ := (assignedId_eq_ok_iff ..).mp h
  obtain ⟨hlayout, hleftover⟩ := (Json.readWith_eq_ok_iff ..).mp hread
  have hwhole := readsWhole_optionalField (readsWhole_optionalField Json.readsWhole_string
    "IdResource" "id") "IdDocument" "data" _ _ _ hlayout
  have hfinds := findsBy_string.optionalField "IdResource" "id"
  obtain ⟨hrecord, rfl⟩ := hfinds.read_optionalField "IdDocument" "data" hlayout
  refine ⟨(Json.readWith_eq_ok_iff ..).mpr ⟨hwhole, hleftover⟩, hrecord, hne, ?_⟩
  rw [join_bind_findField] at hjoin
  obtain ⟨data, hdata, hjoin⟩ := Option.bind_eq_some_iff.mp hjoin
  obtain ⟨v, hv, htext⟩ := Option.bind_eq_some_iff.mp hjoin
  obtain rfl : v = .string id := Option.some.inj ((textOf_eq_some_iff ..).mp htext)
  simp [only?At, hdata, hv]

/-- In a document without repeated names it depends on this place alone which id is assigned. -/
theorem assignedId_eq_ok_iff_only? {body : Bytes} {v : Value}
    (hv : Json.readWith (Node.value Node.maxDepth) body = .ok v) (hdistinct : v.Distinct)
    (id : String) : assignedId body = .ok id ↔
      id ≠ "" ∧ only?At ["data", "id"] v = some (.string id) := by
  constructor
  · intro h
    obtain ⟨_, _, hne, hid⟩ := of_assignedId h
    rw [outline_of_readWith hv] at hid
    exact ⟨hne, hid⟩
  · rintro ⟨hne, hid⟩
    obtain ⟨hvalue, hleftover⟩ := (Json.readWith_eq_ok_iff ..).mp hv
    simp only [only?At, List.foldlM_cons, List.foldlM_nil, Option.bind_eq_bind,
      Option.bind_eq_some_iff] at hid
    obtain ⟨data, hdata, w, hw, heq⟩ := hid
    obtain rfl := Option.some.inj heq
    have hinner : CanRead idLayout.read data := by
      apply canRead_optionalField "IdResource" "id" (.of_only? hw)
        ((hdistinct.only? hdata).givesOnce "id")
      intro found hfound room node hnode
      obtain rfl := Option.some.inj (hw.symm.trans hfound)
      exact ⟨some id, exists_optional_string hnode⟩
    have houter : CanRead idDocumentLayout.read v := by
      apply canRead_optionalField "IdDocument" "data" (.of_only? hdata) (hdistinct.givesOnce "data")
      intro found hfound
      obtain rfl := Option.some.inj (hdata.symm.trans hfound)
      exact CanRead.optional hinner
    obtain ⟨id?, hread⟩ := houter _ _ hvalue
    have hfinds := findsBy_string.optionalField "IdResource" "id"
    have hfound := (hfinds.read_optionalField "IdDocument" "data" hread).2
    rw [outline_of_readWith hv] at hfound
    refine (assignedId_eq_ok_iff ..).mpr ⟨id?, (Json.readWith_eq_ok_iff ..).mpr ⟨hread, hleftover⟩,
      ?_, hne⟩
    rw [hfound, join_bind_findField, hdata, Option.bind_some, hw]
    rfl

/-- The total is the integer that stands under `totalRecords` in what stands under `page` in what
stands under `meta`, if there is any. -/
theorem of_total {body : Bytes} {n : Int} (h : total body = .ok n) :
    Json.readWith Node.skip body = .ok () ∧
      (Json.root body).outline.IsRecord ∧
      n = ((only?At ["meta", "page", "totalRecords"] (Json.root body).outline).bind
        integer?).getD unknownTotal := by
  simp only [total, ofJson, bind_eq_ok, mapError_eq_ok, pure_eq_ok] at h
  obtain ⟨told, hread, rfl⟩ := h
  obtain ⟨hlayout, hleftover⟩ := (Json.readWith_eq_ok_iff ..).mp hread
  have hwhole := readsWhole_optionalField (readsWhole_optionalField (readsWhole_optionalField
    Json.readsWhole_signed64 "PageMeta" "totalRecords") "Meta" "page") "MetaDocument" "meta" _ _ _
    hlayout
  have hfinds := (findsBy_signed64.optionalField "PageMeta" "totalRecords").optionalField "Meta"
    "page"
  obtain ⟨haccepts, rfl⟩ := hfinds.read_optionalField "MetaDocument" "meta" hlayout
  refine ⟨(Json.readWith_eq_ok_iff ..).mpr ⟨hwhole, hleftover⟩, haccepts, ?_⟩
  rw [join_bind_findField, ← Option.bind_assoc, join_bind_findField]
  simp [only?At, Option.bind_assoc]

/-- The response is refused as malformed. The one other fault is that of a relationship whose target
has the wrong type. -/
def Malformed {α : Type} (result : Except Fault α) : Prop :=
  ∃ fault, result = .error fault ∧
    fault.message = "Malformed JSON:API response: " ++ fault.defect

theorem malformed_json {α : Type} (fault : Json.Fault) :
    Malformed (.error (.json fault) : Except Fault α) := ⟨_, rfl, rfl⟩

theorem Malformed.bind {α β : Type} {result : Except Fault α} (h : Malformed result)
    (next : α → Except Fault β) : Malformed (result >>= next) := by
  obtain ⟨fault, rfl, hmessage⟩ := h
  exact ⟨fault, rfl, hmessage⟩

theorem malformed_or_ok_of_ofJson {α : Type} (result : Except Json.Fault α) :
    Malformed (ofJson result) ∨ ∃ a, ofJson result = .ok a := by
  cases result with
  | error fault => exact .inl (malformed_json fault)
  | ok a => exact .inr ⟨a, rfl⟩

theorem malformed_or_ok_of_assignedId (body : Bytes) :
    Malformed (assignedId body) ∨ ∃ id, assignedId body = .ok id := by
  unfold assignedId
  rcases malformed_or_ok_of_ofJson
    (Json.readWith (idDocumentLayout.read Node.maxDepth) body) with h | ⟨id?, h⟩
  · exact .inl (h.bind _)
  · rw [h]
    cases hjoin : id?.join with
    | none => exact .inl ⟨.noAssignedId, by simp [bind, Except.bind, hjoin]; rfl, rfl⟩
    | some id =>
      by_cases hempty : id = ""
      · exact .inl ⟨.noAssignedId, by simp [bind, Except.bind, hjoin, hempty]; rfl, rfl⟩
      · exact .inr ⟨id, by simp [hjoin, hempty]⟩

theorem malformed_or_ok_of_total (body : Bytes) :
    Malformed (total body) ∨ ∃ n, total body = .ok n := by
  unfold total
  rcases malformed_or_ok_of_ofJson
    (Json.readWith (metaDocumentLayout.read Node.maxDepth) body) with h | ⟨told, h⟩
  · exact .inl (h.bind _)
  · exact .inr ⟨_, by rw [h]; rfl⟩

theorem malformed_or_ok_of_parse (body : Bytes) :
    Malformed (parse body) ∨ ∃ document, parse body = .ok document := by
  unfold parse
  rcases malformed_or_ok_of_ofJson (Json.parse body) with h | ⟨value, h⟩
  · exact .inl (h.bind _)
  · rw [h]
    show Malformed (ofValue value) ∨ ∃ document, ofValue value = .ok document
    cases value with
    | object members => exact malformed_or_ok_of_ofJson _
    | _ => exact .inl ⟨.notObject, rfl, rfl⟩

/-- Only an object is a document. -/
theorem malformed_parse {body : Bytes} (h : ¬ ∃ members, Json.parse body = .ok (.object members)) :
    Malformed (parse body) := by
  rcases malformed_or_ok_of_parse body with hmalformed | ⟨document, hparse⟩
  · exact hmalformed
  · obtain ⟨value, hvalue, hmirrors⟩ := mirrors_of_parse hparse
    obtain ⟨members, rfl⟩ := hmirrors.object
    exact absurd ⟨members, hvalue⟩ h

theorem malformed_decodeOne (kind : Kind) {body : Bytes} (h : Malformed (parse body)) :
    Malformed (decodeOne kind body) := h.bind _

theorem malformed_decodeMany (kind : Kind) {body : Bytes} (h : Malformed (parse body)) :
    Malformed (decodeMany kind body) := h.bind _

/-- The id and the total are refused unless the text has outer form and is a record. -/
theorem malformed_receipt {body : Bytes}
    (h : ¬ (Json.readWith Node.skip body = .ok () ∧ (Json.root body).outline.IsRecord)) :
    Malformed (assignedId body) ∧ Malformed (total body) := by
  constructor
  · refine (malformed_or_ok_of_assignedId body).resolve_right ?_
    rintro ⟨id, hid⟩
    obtain ⟨hskip, hrecord, _⟩ := of_assignedId hid
    exact h ⟨hskip, hrecord⟩
  · refine (malformed_or_ok_of_total body).resolve_right ?_
    rintro ⟨n, hn⟩
    obtain ⟨hskip, hrecord, _⟩ := of_total hn
    exact h ⟨hskip, hrecord⟩

/-- A resource of this kind as the list of its type, its id, and its attributes and relationships if
they are given. -/
def ListedResource (kind : Kind) (items : List Value) : Prop :=
  ∃ id rest, items = .string kind.name :: .string id :: rest ∧ id ≠ "" ∧ rest.length ≤ 2

theorem length_le_of_ofItems {items : List Value} {resource : Resource}
    (h : Resource.ofItems items = .ok resource) : items.length ≤ 4 := by
  cases items with
  | nil => exact Nat.zero_le _
  | cons type rest =>
    simp only [Resource.ofItems, bind_eq_ok] at h
    obtain ⟨_, _, _, _, _, _, _, _, h⟩ := h
    split at h
    · exact (throw_ne_ok _ _ h).elim
    · next hlength => exact Nat.le_of_not_lt hlength

theorem listedResource_of_ofItems {kind : Kind} {items : List Value} {resource : Resource}
    (h : Resource.ofItems items = .ok resource) (htype : resource.type = kind.name) {id : String}
    (hid : resource.id = some id) (hne : id ≠ "") :
    ListedResource kind items ∧ items[1]? = some (.string id) := by
  have hlength := length_le_of_ofItems h
  obtain ⟨hfirst, hsecond, _⟩ := Resource.get?_zip_resourceFields items
  have hshows := Resource.shows_of_ofItems h
  have htypeItem := hfirst.symm.trans hshows.type
  have hidItem := hshows.id.symm.trans hid
  rw [hsecond, textOf_eq_some_iff] at hidItem
  refine ⟨?_, hidItem⟩
  match items with
  | [] => cases htypeItem
  | [_] => cases hidItem
  | first :: second :: rest =>
    obtain rfl := Option.some.inj htypeItem
    obtain rfl := Option.some.inj hidItem
    simp only [List.length_cons] at hlength
    exact ⟨id, rest, by rw [htype], hne, by omega⟩

theorem primaryRecord_cases (document : Document) (kind : Kind) (resource : Resource) :
    Malformed (primaryRecord document kind resource) ∨
      resource.type = kind.name ∧ ∃ id, resource.id = some id ∧ id ≠ "" ∧
        primaryRecord document kind resource = hydrate document kind resource := by
  unfold primaryRecord
  by_cases htype : resource.type = kind.name
  · rw [if_neg (not_not.mpr htype)]
    by_cases hid : resource.id.getD "" = ""
    · rw [if_pos hid]
      exact .inl ⟨_, rfl, rfl⟩
    · rw [if_neg hid]
      cases hfound : resource.id with
      | none => exact absurd (by rw [hfound]; rfl) hid
      | some id =>
        rw [hfound] at hid
        exact .inr ⟨htype, id, rfl, hid, rfl⟩
  · rw [if_pos htype]
    exact .inl ⟨_, rfl, rfl⟩

/-- Primary data that is a list is several resources, or one resource as a list. -/
theorem primary_of_array {body : Bytes} {members : Members Value} {items : List Value}
    (hbody : Json.parse body = .ok (.object members))
    (hdata : Members.get? members "data" = some (.array items)) {document : Document}
    (hparse : parse body = .ok document) :
    (∃ resources, document.primary = .many resources) ∨
      ∃ resource, document.primary = .one resource ∧ Resource.ofItems items = .ok resource := by
  obtain ⟨value, hvalue, hmirrors⟩ := mirrors_of_parse hparse
  obtain rfl := Except.ok.inj (hvalue.symm.trans hbody)
  have hprimary : Content.primary (.object members) = .array items := by
    rw [Content.primary, Value.members, hdata]
    rfl
  have hread := hmirrors.primary
  rw [hprimary] at hread
  rcases Primary.ofValue_cases hread with ⟨hnull, _⟩ | ⟨_, resources, _, hmany, _⟩ |
    ⟨resource, hone, hresource⟩
  · cases hnull
  · exact .inl ⟨resources, hmany⟩
  · exact .inr ⟨resource, hone, hresource⟩

theorem decodeOne_of_many (kind : Kind) {body : Bytes} {document : Document}
    (hparse : parse body = .ok document) {resources : List Resource}
    (hmany : document.primary = .many resources) :
    decodeOne kind body = .error (.severalResources kind) := by
  rw [decodeOne, hparse]
  simp only [bind, Except.bind, hmany]
  rfl

/-- Where primary data is a list, a record is read from it only if it is a resource of the kind asked
for as a list. -/
theorem decodeOne_of_array (kind : Kind) {body : Bytes} {members : Members Value}
    {items : List Value} (hbody : Json.parse body = .ok (.object members))
    (hdata : Members.get? members "data" = some (.array items)) :
    Malformed (decodeOne kind body) ∨
      ListedResource kind items ∧ ∀ record?, decodeOne kind body = .ok record? →
        ∃ record id, record? = some record ∧ record.id = some id ∧
          items[1]? = some (.string id) := by
  rcases malformed_or_ok_of_parse body with hmalformed | ⟨document, hparse⟩
  · exact .inl (malformed_decodeOne kind hmalformed)
  · rcases primary_of_array hbody hdata hparse with ⟨resources, hmany⟩ | ⟨resource, hone, hread⟩
    · rw [decodeOne_of_many kind hparse hmany]
      exact .inl ⟨_, rfl, rfl⟩
    · rw [decodeOne_of_parse hparse hone]
      rcases primaryRecord_cases document kind resource with ⟨fault, hfault, hmessage⟩ |
        ⟨htype, id, hid, hne, heq⟩
      · exact .inl ⟨fault, (map_eq_error ..).mpr hfault, hmessage⟩
      · obtain ⟨hlisted, hitem⟩ := listedResource_of_ofItems hread htype hid hne
        refine .inr ⟨hlisted, fun record? h => ?_⟩
        obtain ⟨record, hrecord, rfl⟩ := (map_eq_ok ..).mp h
        rw [heq, hydrate_eq_ok_iff] at hrecord
        obtain ⟨_, _, rfl, _⟩ := hrecord
        exact ⟨_, id, rfl, hid, hitem⟩

end Document

end ResearchRecords
