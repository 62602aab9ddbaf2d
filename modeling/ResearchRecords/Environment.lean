import ResearchRecords.Text.Blank

/-!
Environment variables, and the files that add to them. Each line of such a file sets a variable
that is not set yet, to a value in which quotation marks group, backslashes escape and dollar
signs refer to other variables. Reading stops at the first line with a fault; the lines before it
count.
-/
namespace ResearchRecords

structure Environment where
  bindings : List (String × String)
  deriving DecidableEq, Repr

namespace Environment

def empty : Environment := ⟨[]⟩

def get? (env : Environment) (name : String) : Option String := env.bindings.lookup name

/-- Sets a variable unless it is set. -/
def add (env : Environment) (name value : String) : Environment :=
  if (env.get? name).isSome then env else ⟨env.bindings ++ [(name, value)]⟩

/-- Where a line stands. A quotation that is open at its end goes on in the next line. -/
inductive Quotation
  | plain
  | blank
  | escaped
  | single
  | singleEscaped
  | double
  | doubleEscaped
  deriving DecidableEq, Repr

/-- How one character changes the quotation. None is the beginning of a comment. -/
def Quotation.step : Quotation → Char → Option Quotation
  | .escaped, _ => some .plain
  | .single, c => some (if c = '\\' then .singleEscaped else if c = '\'' then .plain else .single)
  | .singleEscaped, _ => some .single
  | .double, c => some (if c = '\\' then .doubleEscaped else if c = '"' then .plain else .double)
  | .doubleEscaped, _ => some .double
  | state, c =>
    if state = .blank ∧ c = '#' then none
    else if c = '\\' then some .escaped
    else if c = '"' then some .double
    else if c = '\'' then some .single
    else if state = .plain ∧ Text.isBlank c ∧ c ≠ '\n' ∧ c ≠ '\x0d' then some .blank
    else some .plain

def endLine (s : List Char) : List Char :=
  match s.reverse with
  | '\n' :: '\x0d' :: rest => rest.reverse
  | '\n' :: rest => rest.reverse
  | _ => s

/-- What follows the next line break. -/
def nextLine : List Char → List Char
  | [] => []
  | c :: rest => if c = '\n' then rest else nextLine rest

theorem nextLine_length_le (s : List Char) : (nextLine s).length ≤ s.length := by
  induction s with
  | nil => simp [nextLine]
  | cons c rest ih =>
    simp only [nextLine]
    split
    · exact Nat.le_succ _
    · exact Nat.le_succ_of_le ih

/-- The line so far, last character first, grows until a line break outside of quotations. The
second part of the result tells whether the last line is left open, and then it does not count. -/
def splitLines : Quotation → List Char → List Char → List (List Char) × Bool
  | state, done, [] =>
    if done.isEmpty then ([], false)
    else if (Text.dropBlanks done.reverse).head? = some '#' then ([], false)
    else if state = .plain then ([done.reverse], false)
    else ([], true)
  | state, done, c :: rest =>
    let line := c :: done
    if c = '\n' ∧ (Text.dropBlanks line.reverse).head? = some '#' then splitLines .plain [] rest
    else
      match state.step c with
      | none =>
        let (lines, open?) := splitLines .plain [] (nextLine rest)
        (done.reverse :: lines, open?)
      | some next =>
        if c = '\n' ∧ next = .plain then
          let (lines, open?) := splitLines .plain [] rest
          (endLine line.reverse :: lines, open?)
        else splitLines next line rest
termination_by _ _ s => s.length
decreasing_by
  all_goals
    have := nextLine_length_le rest
    simp only [List.length_cons]
    omega

/-- A reference to a variable, with its name so far: after a dollar sign, or between braces. -/
inductive Reference
  | bare (name : List Char)
  | braced (name : List Char)

inductive Reading
  | plain
  | escaped (inDouble : Bool)
  | single
  | double
  | finished
  | reference (inDouble : Bool) (reference : Reference)

/-- The value of a variable, or nothing: variables that are set come before those of the file. -/
def valueOf (env : Environment) (name : List Char) : List Char :=
  ((env.get? (String.ofList name)).getD "").toList

def escapedChar? (c : Char) : Option Char :=
  if c = 'n' then some '\n'
  else if c = '\\' ∨ c = '\'' ∨ c = '"' ∨ c = '$' ∨ c = ' ' then some c
  else none

def unquoted (c : Char) (done : List Char) : Reading × List Char :=
  if c = '$' then (.reference false (.bare []), done)
  else if c = '\'' then (.single, done)
  else if c = '"' then (.double, done)
  else if c = '\\' then (.escaped false, done)
  else if c = ' ' ∨ c = '\t' then (.finished, done)
  else (.plain, done ++ [c])

def quoted (c : Char) (done : List Char) : Reading × List Char :=
  if c = '$' then (.reference true (.bare []), done)
  else if c = '"' then (.plain, done)
  else if c = '\\' then (.escaped true, done)
  else (.double, done ++ [c])

def outside (inDouble : Bool) : Reading := if inDouble then .double else .plain

/-- A reference ends before a character that cannot be part of it, and that character is kept. -/
def refer (env : Environment) (inDouble : Bool) (c : Char) (done : List Char) :
    Reference → Reading × List Char
  | .bare name =>
    if c.isAlphanum then (.reference inDouble (.bare (name ++ [c])), done)
    else if c = '\x7b' ∧ name.isEmpty then (.reference inDouble (.braced []), done)
    else if c = '$' then (.reference inDouble (.bare []), done ++ valueOf env name)
    else (outside inDouble, done ++ valueOf env name ++ [c])
  | .braced name =>
    if c = '\x7d' then (outside inDouble, done ++ valueOf env name)
    else (.reference inDouble (.braced (name ++ [c])), done)

/-- Reads a value from its characters; none is a fault. After a blank only a comment may follow. -/
def readValue (env : Environment) : Reading → List Char → List Char → Option (List Char)
  | .single, _, [] => none
  | .double, _, [] => none
  | .escaped true, _, [] => none
  | .reference true _, _, [] => none
  | .reference false (.braced _), _, [] => none
  | .reference false (.bare name), done, [] => some (done ++ valueOf env name)
  | _, done, [] => some done
  | .plain, done, c :: rest =>
    let (state, done) := unquoted c done
    readValue env state done rest
  | .double, done, c :: rest =>
    let (state, done) := quoted c done
    readValue env state done rest
  | .single, done, c :: rest =>
    if c = '\'' then readValue env .plain done rest else readValue env .single (done ++ [c]) rest
  | .escaped inDouble, done, c :: rest => do
    readValue env (outside inDouble) (done ++ [← escapedChar? c]) rest
  | .reference inDouble reference, done, c :: rest =>
    let (state, done) := refer env inDouble c done reference
    readValue env state done rest
  | .finished, done, c :: rest =>
    if c = ' ' ∨ c = '\t' then readValue env .finished done rest
    else if c = '#' then some done
    else none

def isKeyStart (c : Char) : Bool := c.isAlpha || c == '_'

def isKeyChar (c : Char) : Bool := c.isAlphanum || c == '_' || c == '.'

/-- A name, and what follows it and the blanks after it. -/
def readKey? (s : List Char) : Option (List Char × List Char) :=
  match s with
  | [] => none
  | c :: _ =>
    if isKeyStart c then
      some (s.takeWhile isKeyChar, Text.dropBlanks (s.dropWhile isKeyChar))
    else none

def readEqual? : List Char → Option (List Char)
  | '=' :: rest => some (Text.dropBlanks rest)
  | _ => none

/-- The name and the text of a value; the word "export" may stand before a name. -/
def readAssignment? (s : List Char) : Option (List Char × List Char) := do
  let (key, rest) ← readKey? s
  match readEqual? rest with
  | some value => return (key, value)
  | none =>
    if key = "export".toList then
      let (key, rest) ← readKey? rest
      return (key, ← readEqual? rest)
    else none

/-- Adds what a line sets; a blank line or a comment sets nothing. -/
def addLine? (env : Environment) (line : List Char) : Option Environment := do
  let line := Text.dropBlanks line
  if line.isEmpty ∨ line.head? = some '#' then return env
  let (key, text) ← readAssignment? line
  let value ← if text.head? = some '#' then some [] else readValue env .plain [] text
  return env.add (String.ofList key) (String.ofList value)

def addLines (env : Environment) : List (List Char) → Environment
  | [] => env
  | line :: rest =>
    match env.addLine? line with
    | none => env
    | some env => env.addLines rest

def dropMark : List Char → List Char
  | '\uFEFF' :: rest => rest
  | s => s

/-- The environment with the variables that the text of a file sets. -/
def addFile (env : Environment) (text : String) : Environment :=
  env.addLines (splitLines .plain [] (dropMark text.toList)).1

end Environment

end ResearchRecords
