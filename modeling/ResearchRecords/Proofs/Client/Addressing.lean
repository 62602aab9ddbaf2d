import Mathlib.Data.List.Basic
import ResearchRecords.Proofs.Client.Requests
import ResearchRecords.Proofs.Url.Segments

/-!
Which record an operation reaches. The address of a record is that of its collection with one more
segment that stands for the id, so records of different kinds or ids have different addresses, and
none is that of a collection. Ids that no segment is written for miss their record: a lone dot or two
change nothing, so the request goes to the collection, and tabs and line breaks are dropped, so it
goes to another record.
-/
namespace ResearchRecords

open Results
open Url (IsSegment Spellable StandsFor pathText spell)

namespace Url

theorem exists_closePath_eq (path : List String) : ∃ front, closePath path = front ++ [""] := by
  unfold closePath
  by_cases h : endsInSlash path = true
  · rw [if_pos h]
    exact List.getLast?_eq_some_iff.mp (beq_iff_eq.mp h)
  · rw [if_neg h]
    exact ⟨path, rfl⟩

theorem withPairs_path (url : Url) (pairs : List (String × Option String)) :
    (url.withPairs pairs).path = url.path := by
  unfold withPairs
  split <;> rfl

theorem withPairs_parts (url : Url) (pairs : List (String × Option String)) :
    (url.withPairs pairs).scheme = url.scheme ∧
      (url.withPairs pairs).authority = url.authority ∧
        (url.withPairs pairs).fragment = url.fragment := by
  unfold withPairs
  split <;> exact ⟨rfl, rfl, rfl⟩

end Url

theorem Kind.isPathChar_of_mem_name (kind : Kind) :
    ∀ c ∈ kind.name.toList, Url.isPathChar c = true ∧ c ≠ '/' := by
  have hall : kind.name.toList.all (fun c => Url.isPathChar c && c != '/') = true := by
    cases kind <;> decide
  simpa using hall

namespace Client

/-- An address of the record of a kind with an id: it lies below the collection, and its last
segment stands for the id. -/
structure Addresses (client : Client) (kind : Kind) (id : String) (url : Url) : Prop where
  scheme_eq : url.scheme = client.base.scheme
  authority_eq : url.authority = client.base.authority
  fragment_eq : url.fragment = none
  path_eq : ∃ segment, IsSegment segment ∧ StandsFor segment id ∧
    pathText url.path = pathText client.base.path ++ "data/" ++ kind.name ++ "/" ++ segment

/-- The call sends its request to an address of the record. -/
def Reaches (client : Client) (kind : Kind) (id : String) {α : Type} (call : Call α) : Prop :=
  ∃ request next, call = .send request next ∧ client.Addresses kind id request.url

/-- The path of the base ends in a slash. -/
def IsClosed (client : Client) : Prop := ∃ front, client.base.path = front ++ [""]

theorem isClosed_of_ofConfig {config : Config} {client : Client}
    (h : ofConfig config = .ok client) : client.IsClosed := by
  obtain ⟨url, _, rfl⟩ := (ofConfig_eq_ok_iff ..).mp h
  exact Url.exists_closePath_eq url.path

variable {client : Client}

theorem IsClosed.pathText_base (hclosed : client.IsClosed) :
    ∃ front, pathText client.base.path = front ++ "/" := by
  obtain ⟨front, hfront⟩ := hclosed
  refine ⟨pathText front, ?_⟩
  rw [hfront, Url.pathText_append, Url.pathText_singleton, String.append_empty]

theorem IsClosed.pathText_collectionUrl (hclosed : client.IsClosed) (kind : Kind) :
    pathText (client.collectionUrl kind).path =
      pathText client.base.path ++ "data/" ++ kind.name := by
  obtain ⟨front, hfront⟩ := hclosed
  have hpath : (client.collectionUrl kind).path = front ++ ["data", kind.name] := by
    rw [collectionUrl, Url.sibling, hfront, List.dropLast_concat]
  have hslash : "/" ++ "data/" = "/data/" := by decide
  have hpair : pathText ["data", kind.name] = "/data/" ++ kind.name := by
    simp [pathText, ← String.append_assoc]
  rw [hpath, hfront]
  simp only [Url.pathText_append, Url.pathText_singleton, String.append_empty, String.append_assoc,
    hpair, ← hslash]

/-- An id is addressed by the segment appended for it, if it has one. -/
theorem IsClosed.addresses_iff (hclosed : client.IsClosed) (kind : Kind) {id : String}
    (hne : id ≠ "") {url : Url} (hscheme : url.scheme = client.base.scheme)
    (hauthority : url.authority = client.base.authority) (hfragment : url.fragment = none)
    (hpath : url.path = ((client.collectionUrl kind).push id).path) :
    client.Addresses kind id url ↔ Spellable id := by
  have hcollection := hclosed.pathText_collectionUrl kind
  rw [Url.push] at hpath
  constructor
  · rintro ⟨_, _, _, segment, hsegment, hstands, htext⟩
    rw [hpath, ← hcollection] at htext
    exact Url.spellable_of_appendSegment hne hsegment.nonempty hstands htext
  · intro hspellable
    refine ⟨hscheme, hauthority, hfragment, spell id.toList, Url.isSegment_spell hspellable, ?_, ?_⟩
    · simpa using Url.standsFor_spell id.toList
    · rw [hpath, Url.appendSegment_of_spellable hspellable, Url.pathText_append,
        Url.pathText_singleton, hcollection, ← String.append_assoc]

theorem IsClosed.reaches_send_iff (hclosed : client.IsClosed) (kind : Kind) {id : String}
    (hne : id ≠ "") (method : Method) (pairs : List (String × Option String))
    (body : Option String) {α : Type} (next : Outcome → α) :
    client.Reaches kind id (.send (client.request method
      (((client.collectionUrl kind).push id).withPairs pairs) body) next) ↔ Spellable id := by
  obtain ⟨hscheme, hauthority, hfragment⟩ :=
    Url.withPairs_parts ((client.collectionUrl kind).push id) pairs
  rw [← hclosed.addresses_iff kind hne hscheme hauthority hfragment (Url.withPairs_path _ pairs)]
  constructor
  · rintro ⟨request, next, heq, haddresses⟩
    obtain ⟨rfl, _⟩ := Call.send.inj heq
    exact haddresses
  · intro haddresses
    exact ⟨_, next, rfl, haddresses⟩

theorem append_cons_inj {a : α} {x y s t : List α} (hx : a ∉ x) (hy : a ∉ y)
    (h : x ++ a :: s = y ++ a :: t) : x = y ∧ s = t := by
  induction x generalizing y with
  | nil =>
    cases y with
    | nil => exact ⟨rfl, (List.cons.inj h).2⟩
    | cons b y => exact absurd ((List.cons.inj h).1 ▸ List.mem_cons_self) hy
  | cons b x ih =>
    cases y with
    | nil => exact absurd ((List.cons.inj h).1 ▸ List.mem_cons_self) hx
    | cons c y =>
      obtain ⟨rfl, htail⟩ := List.cons.inj h
      obtain ⟨rfl, rfl⟩ := ih (fun hmem => hx (.tail _ hmem)) (fun hmem => hy (.tail _ hmem)) htail
      exact ⟨rfl, rfl⟩

theorem suffix_append_question (query : Option String) :
    ∃ rest, (Url.suffix "?" query ++ "?").toList = '?' :: rest := by
  cases query with
  | none => exact ⟨[], rfl⟩
  | some s => exact ⟨(s ++ "?").toList, by simp [Url.suffix]⟩

theorem Addresses.text_eq {kind : Kind} {id : String} {url : Url}
    (h : client.Addresses kind id url) : ∃ segment rest, IsSegment segment ∧ StandsFor segment id ∧
      (url.text ++ "?").toList = (client.base.scheme ++ "://" ++ client.base.authority ++
        pathText client.base.path ++ "data/").toList ++
          (kind.name.toList ++ '/' :: (segment.toList ++ '?' :: rest)) := by
  obtain ⟨segment, hsegment, hstands, hpath⟩ := h.path_eq
  obtain ⟨rest, hrest⟩ := suffix_append_question url.query
  refine ⟨segment, rest, hsegment, hstands, ?_⟩
  have hsuffix : Url.suffix "#" none = "" := rfl
  rw [String.toList_append] at hrest
  rw [Url.text, h.scheme_eq, h.authority_eq, h.fragment_eq, hpath, hsuffix, String.append_empty]
  simp only [String.toList_append, List.append_assoc, hrest]
  rfl

theorem Addresses.unique {kind otherKind : Kind} {id otherId : String} {url otherUrl : Url}
    (h : client.Addresses kind id url) (hother : client.Addresses otherKind otherId otherUrl)
    (heq : url.text = otherUrl.text) : kind = otherKind ∧ id = otherId := by
  obtain ⟨segment, rest, hsegment, hstands, htext⟩ := h.text_eq
  obtain ⟨otherSegment, otherRest, hotherSegment, hotherStands, hotherText⟩ := hother.text_eq
  rw [heq, hotherText] at htext
  have hslash : ∀ k : Kind, '/' ∉ k.name.toList := fun k hmem =>
    (k.isPathChar_of_mem_name _ hmem).2 rfl
  have hquestion : ∀ {s : String}, IsSegment s → '?' ∉ s.toList := by
    intro s hs hmem
    exact Bool.false_ne_true (hs.chars _ hmem).1
  obtain ⟨hname, hlast⟩ := append_cons_inj (hslash _) (hslash _) (List.append_cancel_left htext)
  obtain ⟨hsegments, _⟩ := append_cons_inj (hquestion hotherSegment) (hquestion hsegment) hlast
  obtain rfl := String.toList_inj.mp hsegments
  exact ⟨(Kind.name_injective (String.toList_inj.mp hname)).symm, hstands.unique hotherStands⟩

/-- The address of a record is not that of a collection. -/
theorem Addresses.ne_collectionUrl {kind : Kind} {id : String} {url : Url}
    (h : client.Addresses kind id url) (hclosed : client.IsClosed) (otherKind : Kind) :
    pathText url.path ≠ pathText (client.collectionUrl otherKind).path := by
  intro heq
  obtain ⟨segment, hsegment, _, hpath⟩ := h.path_eq
  rw [hpath, hclosed.pathText_collectionUrl, String.append_assoc, String.append_assoc,
    String.append_right_inj] at heq
  have hmem : '/' ∈ otherKind.name.toList := by
    rw [← heq]
    simp
  exact (otherKind.isPathChar_of_mem_name _ hmem).2 rfl

/-- Each operation on an id reaches the record if the id is spellable and only then. What it reaches
then is reached for no other kind or id, and is no collection. -/
theorem reaches_iff_spellable {config : Config} (hclient : ofConfig config = .ok client)
    (kind : Kind) {id : String} (hne : id ≠ "") :
    (∃ front, pathText client.base.path = front ++ "/") ∧
      (∀ including, client.Reaches kind id (client.get kind id including) ↔ Spellable id) ∧
      (client.Reaches kind id (client.delete kind id) ↔ Spellable id) ∧
      (∀ record, record.kind = kind → record.id = some id →
        (client.Reaches kind id (client.update record) ↔ Spellable id) ∧
          ∀ including, client.Reaches kind id (client.refresh record including) ↔ Spellable id) ∧
      ∀ url, client.Addresses kind id url →
        (∀ otherKind otherId otherUrl, client.Addresses otherKind otherId otherUrl →
          otherUrl.text = url.text → otherKind = kind ∧ otherId = id) ∧
        ∀ otherKind, pathText url.path ≠ pathText (client.collectionUrl otherKind).path := by
  have hclosed := isClosed_of_ofConfig hclient
  have hget : ∀ including,
      client.Reaches kind id (client.get kind id including) ↔ Spellable id := by
    intro including
    rw [get, getRequest_eq client kind hne]
    exact hclosed.reaches_send_iff kind hne .get _ none _
  refine ⟨hclosed.pathText_base, hget, ?_, ?_, ?_⟩
  · rw [delete, deleteRequest, recordUrl_eq client kind hne]
    exact hclosed.reaches_send_iff kind hne .delete [] none _
  · rintro record rfl hid
    constructor
    · rw [update, updateRequest_eq client hid hne]
      exact hclosed.reaches_send_iff record.kind hne .patch [] _ _
    · intro including
      rw [refresh, hid]
      exact hget including
  · intro url haddresses
    refine ⟨?_, haddresses.ne_collectionUrl hclosed⟩
    intro otherKind otherId otherUrl hother heq
    exact hother.unique haddresses heq

/-- A client of a repository below a path of the same machine. -/
def mounted : Client := ⟨⟨"http", "127.0.0.1", ["api", ""], none, none⟩, none⟩

def mountedConfig : Config := ⟨"http://127.0.0.1/api", none, none, none⟩

theorem ofConfig_mountedConfig : ofConfig mountedConfig = .ok mounted := by decide +kernel

theorem reaches_slashAndPercent :
    ofConfig mountedConfig = .ok mounted ∧ "a/b%é" ≠ "" ∧
      (∃ front, pathText mounted.base.path = front ++ "/") ∧
      mounted.Reaches .grant "a/b%é" (mounted.get .grant "a/b%é" ["pi"]) ∧
      mounted.Reaches .grant "a/b%é" (mounted.delete .grant "a/b%é") ∧
      mounted.Reaches .grant "a/b%é" (mounted.update (.stub .grant "a/b%é")) ∧
      mounted.Reaches .grant "a/b%é" (mounted.refresh (.stub .grant "a/b%é") []) ∧
      ∀ url, mounted.Addresses .grant "a/b%é" url → ∀ otherUrl,
        mounted.Addresses .grant "a" otherUrl → otherUrl.text ≠ url.text := by
  have hspellable : Spellable "a/b%é" := by decide
  have hne : "a/b%é" ≠ "" := hspellable.nonempty
  obtain ⟨hbase, hget, hdelete, hrecord, hunique⟩ :=
    reaches_iff_spellable ofConfig_mountedConfig .grant hne
  obtain ⟨hupdate, hrefresh⟩ := hrecord (.stub .grant "a/b%é") rfl rfl
  refine ⟨ofConfig_mountedConfig, hne, hbase, (hget _).mpr hspellable, hdelete.mpr hspellable,
    hupdate.mpr hspellable, (hrefresh _).mpr hspellable, ?_⟩
  intro url haddresses otherUrl hother heq
  exact absurd ((hunique url haddresses).1 .grant "a" otherUrl hother heq).2 (by decide)

/-- A lone dot leads to the collection, and an id with a tab to another record. -/
theorem delete_dot_reaches_collection :
    ofConfig mountedConfig = .ok mounted ∧
      (∃ next, mounted.delete .grant "." =
        .send ⟨.delete, mounted.collectionUrl .grant, none, none⟩ next) ∧
      ¬ mounted.Reaches .grant "." (mounted.delete .grant ".") ∧
      mounted.recordUrl .grant "a\tb" = mounted.recordUrl .grant "ab" := by
  have hdelete : ∃ next, mounted.delete .grant "." =
      .send ⟨.delete, mounted.collectionUrl .grant, none, none⟩ next := ⟨_, rfl⟩
  refine ⟨ofConfig_mountedConfig, hdelete, ?_, by decide⟩
  obtain ⟨next, hsend⟩ := hdelete
  rintro ⟨request, other, heq, haddresses⟩
  obtain ⟨rfl, _⟩ := Call.send.inj (hsend.symm.trans heq)
  exact haddresses.ne_collectionUrl (isClosed_of_ofConfig ofConfig_mountedConfig) .grant rfl

end Client

end ResearchRecords
