import ResearchRecords.Json.Node
import ResearchRecords.Proofs.Json.WrittenText
import Mathlib.Data.List.Forall2

/-!
Values as they are written on one line. The text of a value without numbers grows into one tree,
whatever follows it, and that tree reads back as the value when the nesting is within the depth the
reader allows.
-/
namespace ResearchRecords.Json

/-- Values without numbers that are nested at most so deep. -/
inductive Value.Plain : Nat → Value → Prop
  | null (room : Nat) : Plain room .null
  | bool (room : Nat) (b : Bool) : Plain room (.bool b)
  | string (room : Nat) (s : String) : Plain room (.string s)
  | array (room : Nat) (items : List Value) (h : ∀ v ∈ items, Plain room v) :
    Plain (room + 1) (.array items)
  | object (room : Nat) (members : Members Value) (h : ∀ m ∈ members, Plain room m.2) :
    Plain (room + 1) (.object members)

namespace Value

@[simp] theorem plain_string (room : Nat) (s : String) : (Value.string s).Plain room :=
  .string room s

@[simp] theorem plain_array_iff (room : Nat) (items : List Value) :
    (Value.array items).Plain (room + 1) ↔ ∀ v ∈ items, v.Plain room := by
  constructor
  · rintro ⟨⟩
    assumption
  · exact Plain.array room items

@[simp] theorem plain_object_iff (room : Nat) (members : Members Value) :
    (Value.object members).Plain (room + 1) ↔ ∀ m ∈ members, m.2.Plain room := by
  constructor
  · rintro ⟨⟩
    assumption
  · exact Plain.object room members

end Value

mutual

/-- The tree of a written value. -/
def Value.tree : Value → Node
  | .null => .null
  | .bool b => .bool b
  | .number _ => .missing .absent
  | .string s => .text (Writer.textPieces s)
  | .array items => .list (Value.treeItems items) .closed
  | .object members => .object (Value.treeMembers members) .closed

def Value.treeItems : List Value → List Node
  | [] => []
  | item :: rest => item.tree :: Value.treeItems rest

def Value.treeMembers : List (String × Value) → List (List Piece × Node)
  | [] => []
  | (name, value) :: rest => (Writer.textPieces name, value.tree) :: Value.treeMembers rest

end

namespace Token

theorem ofBytes_cons {b : UInt8} (h : Lexer.isSpace b = false) (rest : Bytes) :
    ofBytes (b :: rest) = (Lexer.first b rest).1 :: ofBytes (Lexer.first b rest).2 := by
  rw [ofBytes.eq_def]
  simp [h]

theorem ofBytes_string (s : String) (rest : Bytes) :
    ofBytes (bytesOf (Writer.string s) ++ rest) = .text (Writer.textPieces s) :: ofBytes rest := by
  have hbytes : bytesOf (Writer.string s) ++ rest =
      0x22 :: (bytesOf (s.toList.flatMap Writer.escape) ++ 0x22 :: rest) := by
    rw [Writer.string, List.cons_append, bytesOf_cons_of_lt (by decide), bytesOf_append,
      List.cons_append, List.append_assoc]
    rfl
  have hfirst : Lexer.first 0x22 (bytesOf (s.toList.flatMap Writer.escape) ++ 0x22 :: rest) =
      (.text (Writer.textPieces s), rest) := by
    show Lexer.text _ = _
    rw [Lexer.text, Lexer.pieces_written]
    rfl
  rw [hbytes, ofBytes_cons (by decide), hfirst]

end Token

namespace Node

/-- Grows a tree further with the tokens of a text. -/
def Growth.feed (growth : Growth) (bytes : Bytes) : Growth :=
  (Token.ofBytes bytes).foldl Growth.step growth

/-- A value may begin here, and it will take its place on this stack. -/
def Growth.Expects (growth : Growth) (stack : List Frame) : Prop :=
  ∀ token, token ≠ .closeList → growth.step token = begin stack token

namespace Growth

theorem expects_value (stack : List Frame) : (Growth.value stack).Expects stack :=
  fun _ _ => rfl

theorem expects_listStart (stack : List Frame) :
    (Growth.listStart stack).Expects (.list [] :: stack) := by
  intro token h
  cases token <;> first | rfl | exact absurd rfl h

theorem expects_listItem (items : List Node) (stack : List Frame) :
    (Growth.listItem items stack).Expects (.list items :: stack) := by
  intro token h
  cases token <;> first | rfl | exact absurd rfl h

theorem feed_cons {b : UInt8} (h : Lexer.isSpace b = false) (growth : Growth) (rest : Bytes) :
    growth.feed (b :: rest) =
      (growth.step (Lexer.first b rest).1).feed (Lexer.first b rest).2 := by
  rw [feed, Token.ofBytes_cons h]
  rfl

theorem feed_string (s : String) (growth : Growth) (rest : Bytes) :
    growth.feed (bytesOf (Writer.string s) ++ rest) =
      (growth.step (.text (Writer.textPieces s))).feed rest := by
  rw [feed, Token.ofBytes_string]
  rfl

/-- The text of a value puts its tree in place, on any stack and before any further text. -/
def TakesIn (text : List Char) (tree : Node) : Prop :=
  ∀ growth stack rest, Expects growth stack →
    growth.feed (bytesOf text ++ rest) = (place tree stack).feed rest

theorem takesIn_string (s : String) : TakesIn (Writer.string s) (.text (Writer.textPieces s)) := by
  intro growth stack rest hgrowth
  rw [feed_string, hgrowth _ (by simp)]
  rfl

/-- A text whose first byte begins the only token of a value. -/
theorem takesIn_word {text : List Char} {tree : Node} (b : UInt8) (tail : Bytes) (token : Token)
    (hbytes : bytesOf text = b :: tail) (hspace : Lexer.isSpace b = false)
    (hfirst : ∀ rest, Lexer.first b (tail ++ rest) = (token, rest)) (htoken : token ≠ .closeList)
    (hbegin : ∀ stack, begin stack token = place tree stack) : TakesIn text tree := by
  intro growth stack rest hgrowth
  rw [hbytes, List.cons_append, feed_cons hspace, hfirst, hgrowth token htoken, hbegin]

/-- A character that is a token of its own. -/
structure Mark (c : Char) (token : Token) : Prop where
  ascii : c.toNat < 0x80
  solid : Lexer.isSpace (UInt8.ofNat c.toNat) = false
  first : ∀ rest, Lexer.first (UInt8.ofNat c.toNat) rest = (token, rest)

theorem mark_comma : Mark ',' .comma := ⟨by decide, by decide, fun _ => rfl⟩

theorem mark_colon : Mark ':' .colon := ⟨by decide, by decide, fun _ => rfl⟩

theorem mark_openList : Mark '[' .openList := ⟨by decide, by decide, fun _ => rfl⟩

theorem mark_closeList : Mark ']' .closeList := ⟨by decide, by decide, fun _ => rfl⟩

theorem mark_openObject : Mark '\x7b' .openObject := ⟨by decide, by decide, fun _ => rfl⟩

theorem mark_closeObject : Mark '\x7d' .closeObject := ⟨by decide, by decide, fun _ => rfl⟩

theorem feed_mark {c : Char} {token : Token} (h : Mark c token) (growth : Growth) (s : List Char)
    (rest : Bytes) :
    growth.feed (bytesOf (c :: s) ++ rest) = (growth.step token).feed (bytesOf s ++ rest) := by
  rw [bytesOf_cons_of_lt h.ascii, List.cons_append, feed_cons h.solid, h.first]

/-- The text of a member grows an object by one. -/
def TakesInMember (text : List Char) (member : List Piece × Node) : Prop :=
  ∃ name value, text = Writer.string name ++ ':' :: value ∧
    member.1 = Writer.textPieces name ∧ TakesIn value member.2

theorem TakesInMember.feed {text : List Char} {member : List Piece × Node}
    (h : TakesInMember text member) (growth : Growth) {before : List (List Piece × Node)}
    {stack : List Frame} (rest : Bytes)
    (hkey : growth.step (.text member.1) = .objectColon before member.1 stack) :
    growth.feed (bytesOf text ++ rest) =
      (Growth.objectNext (member :: before) stack).feed rest := by
  obtain ⟨name, value, rfl, hname, hvalue⟩ := h
  have hplaced := hvalue _ _ rest (expects_value (.member before member.1 :: stack))
  rw [bytesOf_append, List.append_assoc, feed_string, ← hname, hkey, feed_mark mark_colon]
  exact hplaced

end Growth

end Node

theorem Writer.enclosed_cons (first last : Char) (text : List Char) (texts : List (List Char)) :
    Writer.enclosed first last [','] (text :: texts) =
      first :: (text ++ (texts.flatMap (',' :: ·) ++ [last])) := by
  have hjoin : ∀ (text : List Char) (texts : List (List Char)),
      [','].intercalate (text :: texts) = text ++ texts.flatMap (',' :: ·) := by
    intro text texts
    induction texts generalizing text with
    | nil => simp [List.intercalate]
    | cons other texts ih =>
      simp only [List.intercalate] at ih
      simp [List.intercalate, ih]
  simp [Writer.enclosed, hjoin]

theorem Writer.compactItems_eq (items : List Value) :
    Writer.compactItems items = items.map Writer.compact := by
  induction items with
  | nil => rfl
  | cons item items ih => rw [Writer.compactItems, ih, List.map_cons]

theorem Writer.compactMembers_eq (members : Members Value) :
    Writer.compactMembers members =
      members.map fun m => Writer.string m.1 ++ ':' :: Writer.compact m.2 := by
  induction members with
  | nil => rfl
  | cons m members ih => rw [Writer.compactMembers, ih, List.map_cons]

theorem Value.treeItems_eq (items : List Value) : Value.treeItems items = items.map Value.tree := by
  induction items with
  | nil => rfl
  | cons item items ih => rw [Value.treeItems, ih, List.map_cons]

theorem Value.treeMembers_eq (members : Members Value) :
    Value.treeMembers members =
      members.map fun m => (Writer.textPieces m.1, m.2.tree) := by
  induction members with
  | nil => rfl
  | cons m members ih => rw [Value.treeMembers, ih, List.map_cons]

namespace Node.Growth

/-- How a list or an object grows: from its opening mark, item by item, to its closing mark. -/
structure Bracketed (β : Type) where
  opening : Char
  closing : Char
  opens : Token
  closes : Token
  start : List Frame → Growth
  next : List β → List Frame → Growth
  tree : List β → Node
  Takes : List Char → β → Prop
  opening_mark : Mark opening opens
  closing_mark : Mark closing closes
  opens_ne : opens ≠ .closeList
  step_open : ∀ stack, begin stack opens = start stack
  step_empty : ∀ stack, (start stack).step closes = place (tree []) stack
  step_close : ∀ items stack, (next items stack).step closes = place (tree items.reverse) stack
  feed_first : ∀ text item stack rest, Takes text item →
    (start stack).feed (bytesOf text ++ rest) = (next [item] stack).feed rest
  feed_further : ∀ text item items stack rest, Takes text item →
    ((next items stack).step .comma).feed (bytesOf text ++ rest) =
      (next (item :: items) stack).feed rest

namespace Bracketed

variable {β : Type} (brackets : Bracketed β)

/-- The items after the first, up to the closing mark. -/
theorem feed_rest {texts : List (List Char)} {items : List β}
    (h : List.Forall₂ brackets.Takes texts items) (before : List β) (stack : List Frame)
    (rest : Bytes) :
    (brackets.next before stack).feed
        (bytesOf (texts.flatMap (',' :: ·) ++ [brackets.closing]) ++ rest) =
      (place (brackets.tree (before.reverse ++ items)) stack).feed rest := by
  induction h generalizing before with
  | nil =>
    rw [List.flatMap_nil, List.nil_append, feed_mark brackets.closing_mark, List.append_nil,
      brackets.step_close]
    rfl
  | @cons text item texts items htext _ ih =>
    rw [List.flatMap_cons, List.append_assoc, List.cons_append, feed_mark mark_comma,
      bytesOf_append, List.append_assoc, brackets.feed_further _ _ _ _ _ htext, ih,
      List.reverse_cons, List.append_assoc]
    rfl

theorem takesIn {texts : List (List Char)} {items : List β}
    (h : List.Forall₂ brackets.Takes texts items) :
    TakesIn (Writer.enclosed brackets.opening brackets.closing [','] texts)
      (brackets.tree items) := by
  intro growth stack rest hgrowth
  cases h with
  | nil =>
    rw [Writer.enclosed, List.cons_append, feed_mark brackets.opening_mark,
      hgrowth _ brackets.opens_ne, brackets.step_open]
    show (brackets.start stack).feed (bytesOf [brackets.closing] ++ rest) = _
    rw [feed_mark brackets.closing_mark, brackets.step_empty]
    rfl
  | @cons text item texts items htext hrest =>
    rw [Writer.enclosed_cons, feed_mark brackets.opening_mark, bytesOf_append, List.append_assoc,
      hgrowth _ brackets.opens_ne, brackets.step_open, brackets.feed_first _ _ _ _ htext,
      brackets.feed_rest hrest]
    rfl

end Bracketed

def listBrackets : Bracketed Node where
  opening := '['
  closing := ']'
  opens := .openList
  closes := .closeList
  start := .listStart
  next := .listNext
  tree items := .list items .closed
  Takes := TakesIn
  opening_mark := mark_openList
  closing_mark := mark_closeList
  opens_ne := by simp
  step_open _ := rfl
  step_empty _ := rfl
  step_close _ _ := rfl
  feed_first _ _ stack rest h := h _ _ rest (expects_listStart stack)
  feed_further _ _ items stack rest h := h _ _ rest (expects_listItem items stack)

def objectBrackets : Bracketed (List Piece × Node) where
  opening := '\x7b'
  closing := '\x7d'
  opens := .openObject
  closes := .closeObject
  start := .objectStart
  next := .objectNext
  tree members := .object members .closed
  Takes := TakesInMember
  opening_mark := mark_openObject
  closing_mark := mark_closeObject
  opens_ne := by simp
  step_open _ := rfl
  step_empty _ := rfl
  step_close _ _ := rfl
  feed_first _ _ stack rest h := h.feed (.objectStart stack) rest rfl
  feed_further _ _ members stack rest h := h.feed (.objectKey members stack) rest rfl

theorem takesIn_compact {room : Nat} {v : Value} (h : v.Plain room) :
    TakesIn (Writer.compact v) v.tree := by
  induction h with
  | null =>
    exact takesIn_word 0x6E [0x75, 0x6C, 0x6C] .null (by decide) (by decide) (fun _ => rfl)
      (by simp) (fun _ => rfl)
  | bool _ b =>
    cases b with
    | true =>
      exact takesIn_word 0x74 [0x72, 0x75, 0x65] (.bool true) (by decide) (by decide)
        (fun _ => rfl) (by simp) (fun _ => rfl)
    | false =>
      exact takesIn_word 0x66 [0x61, 0x6C, 0x73, 0x65] (.bool false) (by decide) (by decide)
        (fun _ => rfl) (by simp) (fun _ => rfl)
  | string _ s => exact takesIn_string s
  | array _ items _ ih =>
    have htexts : List.Forall₂ TakesIn (items.map Writer.compact) (items.map Value.tree) := by
      rw [List.forall₂_map_left_iff, List.forall₂_map_right_iff, List.forall₂_same]
      exact ih
    have harray := listBrackets.takesIn htexts
    rwa [← Writer.compactItems_eq, ← Value.treeItems_eq] at harray
  | object _ members _ ih =>
    have htexts : List.Forall₂ TakesInMember
        (members.map fun m => Writer.string m.1 ++ ':' :: Writer.compact m.2)
        (members.map fun m => (Writer.textPieces m.1, m.2.tree)) := by
      rw [List.forall₂_map_left_iff, List.forall₂_map_right_iff, List.forall₂_same]
      exact fun m hm => ⟨m.1, _, rfl, rfl, ih m hm⟩
    have hobject := objectBrackets.takesIn htexts
    rwa [← Writer.compactMembers_eq, ← Value.treeMembers_eq] at hobject

end Node.Growth

/-- A text of one value grows into its tree, with nothing left over. -/
theorem ofTokens_toBytes {room : Nat} {v : Value} (h : v.Plain room) :
    Node.ofTokens (Token.ofBytes v.toBytes) = (v.tree, false) := by
  have hfeed := Node.Growth.takesIn_compact h _ _ [] (Node.Growth.expects_value [])
  have hbytes : v.toBytes = bytesOf (Writer.compact v) ++ [] := by
    rw [Value.toBytes, Value.compact, Text.Utf8.encode_ofList, List.append_nil]
    rfl
  show (Node.Growth.feed (.value []) v.toBytes).finish = _
  rw [hbytes, hfeed, Node.Growth.feed, Token.ofBytes]
  rfl

namespace Node

theorem valueItems_tree {room : Nat} {items : List Value}
    (h : ∀ v ∈ items, v.tree.value room = .ok v) :
    valueItems room (items.map Value.tree) = .ok items := by
  induction items with
  | nil => rfl
  | cons v items ih =>
    obtain ⟨hv, hitems⟩ := List.forall_mem_cons.mp h
    rw [List.map_cons, valueItems, hv, ih hitems]
    rfl

theorem valueMembers_tree {room : Nat} {members : Members Value}
    (h : ∀ m ∈ members, m.2.tree.value room = .ok m.2) :
    valueMembers room (members.map fun m => (Writer.textPieces m.1, m.2.tree)) = .ok members := by
  induction members with
  | nil => rfl
  | cons m members ih =>
    obtain ⟨hm, hmembers⟩ := List.forall_mem_cons.mp h
    rw [List.map_cons, valueMembers, decodePieces_textPieces, hm, ih hmembers]
    rfl

theorem value_tree {room : Nat} {v : Value} (h : v.Plain room) : v.tree.value room = .ok v := by
  induction h with
  | null => rfl
  | bool => rfl
  | string room s =>
    rw [Value.tree, value, decodePieces_textPieces]
    rfl
  | array room items _ ih =>
    rw [Value.tree, value, Value.treeItems_eq, enter]
    simp only [bind, Except.bind, valueItems_tree ih]
    rfl
  | object room members _ ih =>
    rw [Value.tree, value, Value.treeMembers_eq, enter]
    simp only [bind, Except.bind, valueMembers_tree ih]
    rfl

end Node

/-- Reading the text of a value is reading its tree. -/
theorem readWith_toBytes {α : Type} {room : Nat} {v : Value} (h : v.Plain room)
    (read : Node → Except Fault α) : readWith read v.toBytes = read v.tree := by
  rw [readWith, ofTokens_toBytes h]
  cases hread : read v.tree with
  | error fault => simp [hread, bind, Except.bind]
  | ok a => simp [hread, bind, Except.bind, pure, Except.pure]

theorem parse_toBytes {v : Value} (h : v.Plain Node.maxDepth) :
    parse v.toBytes = .ok v.canonical := by
  rw [parse, readWith_toBytes h, Node.value_tree h]
  rfl

end ResearchRecords.Json
