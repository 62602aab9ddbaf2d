import ResearchRecords.Json.Lexer

/-!
The tree of a JSON text, as far as the text goes. Where the text breaks off the tree holds the
defect in the place of the missing value, and every list and object says how it ends, so that each
reader meets the fault at its own time: a reader that refuses a value sooner never sees it.
`Node.value` reads a whole tree, `Node.skip` passes over it with weaker rules, and other readers
choose between the two from place to place.
-/
namespace ResearchRecords.Json

inductive ListEnd
  | closed
  | ended
  | noComma
  | trailingComma
  deriving DecidableEq, Repr

inductive ObjectEnd
  | closed
  | ended
  | noComma
  | trailingComma
  | endedAfterComma
  | noKey (found : Token)
  deriving DecidableEq, Repr

inductive Node
  | missing (defect : Defect)
  | null
  | bool (b : Bool)
  | number (n : Numeral)
  | text (pieces : List Piece)
  | list (items : List Node) (ending : ListEnd)
  | object (members : List (List Piece × Node)) (ending : ObjectEnd)

def ListEnd.fault? : ListEnd → Option Fault
  | .closed => none
  | .ended => some .endInList
  | .noComma => some .expectedListEnd
  | .trailingComma => some .trailingComma

def ListEnd.skipFault? : ListEnd → Option Fault
  | .trailingComma => some .expectedValue
  | ending => ending.fault?

/-- The fault at the end of a list of which no more items are wanted. -/
def ListEnd.surplusFault? : ListEnd → Option Fault
  | .noComma => some .trailingCharacters
  | ending => ending.fault?

def ObjectEnd.fault? : ObjectEnd → Option Fault
  | .closed => none
  | .ended => some .endInObject
  | .noComma => some .expectedObjectEnd
  | .trailingComma => some .trailingComma
  | .endedAfterComma => some .endInValue
  | .noKey (.broken (.text pieces defect)) => some (brokenPieces pieces defect)
  | .noKey _ => some .keyNotString

def ObjectEnd.skipFault? : ObjectEnd → Option Fault
  | .trailingComma => some .keyNotString
  | .endedAfterComma => some .endInObject
  | .noKey (.broken (.text _ defect)) => some defect.fault
  | ending => ending.fault?

def refuse : Option Fault → Except Fault Unit
  | none => .ok ()
  | some fault => .error fault

namespace Node

/-- An open list, or an open object with the name whose value comes next; both hold what was read,
the latest first. -/
inductive Frame
  | list (items : List Node)
  | member (members : List (List Piece × Node)) (key : List Piece)

inductive Growth
  | value (stack : List Frame)
  | listStart (stack : List Frame)
  | listItem (items : List Node) (stack : List Frame)
  | listNext (items : List Node) (stack : List Frame)
  | objectStart (stack : List Frame)
  | objectKey (members : List (List Piece × Node)) (stack : List Frame)
  | objectColon (members : List (List Piece × Node)) (key : List Piece) (stack : List Frame)
  | objectNext (members : List (List Piece × Node)) (stack : List Frame)
  | done (node : Node) (leftover : Bool)

/-- A node takes its place in the innermost open list or object. -/
def place (node : Node) : List Frame → Growth
  | [] => .done node false
  | .list items :: stack => .listNext (node :: items) stack
  | .member members key :: stack => .objectNext ((key, node) :: members) stack

/-- A frame that is cut off after its last node. -/
def Frame.cut (node : Node) : Frame → Node
  | .list items => .list (node :: items).reverse .ended
  | .member members key => .object ((key, node) :: members).reverse .ended

/-- The text breaks off within this node. -/
def cut (node : Node) (stack : List Frame) : Node := stack.foldl Frame.cut node

def stop (node : Node) (stack : List Frame) : Growth := .done (node.cut stack) false

def begin (stack : List Frame) : Token → Growth
  | .openList => .listStart stack
  | .openObject => .objectStart stack
  | .null => place .null stack
  | .bool b => place (.bool b) stack
  | .number n => place (.number n) stack
  | .text pieces => place (.text pieces) stack
  | .broken defect => stop (.missing defect) stack
  | _ => stop (.missing .stray) stack

def Growth.step : Growth → Token → Growth
  | .value stack, token => begin stack token
  | .listStart stack, .closeList => place (.list [] .closed) stack
  | .listStart stack, token => begin (.list [] :: stack) token
  | .listItem items stack, .closeList => stop (.list items.reverse .trailingComma) stack
  | .listItem items stack, token => begin (.list items :: stack) token
  | .listNext items stack, .comma => .listItem items stack
  | .listNext items stack, .closeList => place (.list items.reverse .closed) stack
  | .listNext items stack, _ => stop (.list items.reverse .noComma) stack
  | .objectStart stack, .text key => .objectColon [] key stack
  | .objectStart stack, .closeObject => place (.object [] .closed) stack
  | .objectStart stack, token => stop (.object [] (.noKey token)) stack
  | .objectKey members stack, .text key => .objectColon members key stack
  | .objectKey members stack, .closeObject => stop (.object members.reverse .trailingComma) stack
  | .objectKey members stack, token => stop (.object members.reverse (.noKey token)) stack
  | .objectColon members key stack, .colon => .value (.member members key :: stack)
  | .objectColon members key stack, _ =>
    stop (.missing (.colon false)) (.member members key :: stack)
  | .objectNext members stack, .comma => .objectKey members stack
  | .objectNext members stack, .closeObject => place (.object members.reverse .closed) stack
  | .objectNext members stack, _ => stop (.object members.reverse .noComma) stack
  | .done node _, _ => .done node true

/-- The tree when there are no more tokens, and whether some were left over. -/
def Growth.finish : Growth → Node × Bool
  | .value stack => (cut (.missing .absent) stack, false)
  | .listStart stack => (cut (.list [] .ended) stack, false)
  | .listItem items stack => (cut (.missing .absent) (.list items :: stack), false)
  | .listNext items stack => (cut (.list items.reverse .ended) stack, false)
  | .objectStart stack => (cut (.object [] .ended) stack, false)
  | .objectKey members stack => (cut (.object members.reverse .endedAfterComma) stack, false)
  | .objectColon members key stack =>
    (cut (.missing (.colon true)) (.member members key :: stack), false)
  | .objectNext members stack => (cut (.object members.reverse .ended) stack, false)
  | .done node leftover => (node, leftover)

def ofTokens (tokens : List Token) : Node × Bool :=
  (tokens.foldl Growth.step (.value [])).finish

/-- How deep lists and objects may be nested where a value is read. -/
def maxDepth : Nat := 127

/-- What is left of the depth inside one more list or object. -/
def enter : Nat → Except Fault Nat
  | 0 => .error .nestedTooDeep
  | room + 1 => .ok room

mutual

def value (room : Nat) : Node → Except Fault Value
  | .missing defect => .error defect.fault
  | .null => .ok .null
  | .bool b => .ok (.bool b)
  | .number n => do return .number (← n.number)
  | .text pieces => do return .string (← decodePieces pieces)
  | .list items ending => do
    let values ← valueItems (← enter room) items
    refuse ending.fault?
    return .array values
  | .object members ending => do
    let values ← valueMembers (← enter room) members
    refuse ending.fault?
    return .object values

def valueItems (room : Nat) : List Node → Except Fault (List Value)
  | [] => .ok []
  | item :: rest => do
    let v ← item.value room
    return v :: (← valueItems room rest)

def valueMembers (room : Nat) :
    List (List Piece × Node) → Except Fault (List (String × Value))
  | [] => .ok []
  | (key, node) :: rest => do
    let name ← decodePieces key
    let v ← node.value room
    return (name, v) :: (← valueMembers room rest)

end

mutual

/-- Passes over a value, at any depth; its strings and numbers need only their outer form. -/
def skip : Node → Except Fault Unit
  | .missing defect => .error defect.skipFault
  | .list items ending => do
    skipItems items
    refuse ending.skipFault?
  | .object members ending => do
    skipMembers members
    refuse ending.skipFault?
  | _ => .ok ()

def skipItems : List Node → Except Fault Unit
  | [] => .ok ()
  | item :: rest => do
    item.skip
    skipItems rest

def skipMembers : List (List Piece × Node) → Except Fault Unit
  | [] => .ok ()
  | (_, node) :: rest => do
    node.skip
    skipMembers rest

end

/-- The fault of a value that is not of the kind expected here; a scalar is read for it first. -/
def mistyped (expected : String) : Node → Fault
  | .missing defect => defect.fault
  | .null => .invalidType .null expected
  | .bool b => .invalidType (.boolean b) expected
  | .number n =>
    match n.number with
    | .ok n => .invalidType n.found expected
    | .error fault => fault
  | .text pieces =>
    match decodePieces pieces with
    | .ok s => .invalidType (.string s) expected
    | .error fault => fault
  | .list _ _ => .invalidType .list expected
  | .object _ _ => .invalidType .object expected

end Node

/-- Reads a text with one of the readers of trees. What follows the value is a fault of its own,
found last. -/
def readWith (read : Node → Except Fault α) (bytes : Bytes) : Except Fault α := do
  let (node, leftover) := Node.ofTokens (Token.ofBytes bytes)
  let result ← read node
  if leftover then throw .trailingCharacters else return result

/-- The value of a text, its objects in canonical form. -/
def parse (bytes : Bytes) : Except Fault Value := do
  return (← readWith (Node.value Node.maxDepth) bytes).canonical

end ResearchRecords.Json
