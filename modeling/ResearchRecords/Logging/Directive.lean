import ResearchRecords.Logging.Settings

/-!
Filter directives: a threshold for the targets that begin with some text, or for all of them. Of the
directives that apply to an event the one with the longest text decides, and a directive takes the
place of an earlier one with the same text.
-/
namespace ResearchRecords.Logging

structure Directive where
  target : Option String
  threshold : Threshold
  deriving DecidableEq, Repr

namespace Directive

def levelCause : String :=
  "error parsing level filter: expected one of \"off\", \"error\", \"warn\", \"info\", " ++
    "\"debug\", \"trace\", or a number 0-5"

def startCause : String := "invalid filter directive"

def mayStart (c : Char) : Bool := c.isAlphanum || 0x80 ≤ c.toNat || "-:_".toList.contains c

/-- A target with a threshold. A target alone, or with nothing after its equals sign, records all; a
word that is a threshold is for all targets. The failure is its cause. -/
def parse (text : String) : Except String Directive :=
  match text.toList, text.toList.span (· != '=') with
  | [], _ => .ok ⟨none, some .trace⟩
  | c :: _, (target, threshold) =>
    if !mayStart c then .error startCause
    else
      match threshold with
      | [] =>
        match Threshold.ofText? text with
        | some threshold => .ok ⟨none, threshold⟩
        | none => .ok ⟨some text, some .trace⟩
      | [_] => .ok ⟨some (String.ofList target), some .trace⟩
      | _ :: threshold =>
        match Threshold.ofText? (String.ofList threshold) with
        | some threshold => .ok ⟨some (String.ofList target), threshold⟩
        | none => .error levelCause

def applies (directive : Directive) (target : String) : Bool :=
  (directive.target.getD "").toList.isPrefixOf target.toList

def size (directive : Directive) : Nat :=
  match directive.target with
  | none => 0
  | some target => target.length + 1

end Directive

/-- The directives in force. -/
abbrev EventFilter := List Directive

namespace EventFilter

def add (filter : EventFilter) (directive : Directive) : EventFilter :=
  filter.filter (fun d => d.target ≠ directive.target) ++ [directive]

/-- The more special of two directives. -/
def moreSpecial (a b : Directive) : Directive := if a.size < b.size then b else a

def deciding? (filter : EventFilter) (target : String) : Option Directive :=
  match filter.filter (·.applies target) with
  | [] => none
  | d :: rest => some (rest.foldl moreSpecial d)

def admits (filter : EventFilter) (target : String) (level : Level) : Bool :=
  ((filter.deciding? target).map fun d => d.threshold.admits level).getD false

def directivesVariable : String := "RUST_LOG"

/-- The parts of a text between commas. -/
def split (text : String) : List String := (text.toList.splitOn ',').map String.ofList

/-- The directives of the environment; those that cannot be read do not count, nor do those with
blanks before them. -/
def ofEnvironment (env : Environment) : EventFilter :=
  ((split ((env.get? directivesVariable).getD "")).filter (· ≠ "")).foldl (fun filter part =>
    match Directive.parse part with
    | .ok directive => filter.add directive
    | .error _ => filter) []

def addPart (filter : EventFilter) (part : String) : Except Fault EventFilter :=
  match Directive.parse part with
  | .ok directive => .ok (filter.add directive)
  | .error cause => .error (.badDirective part cause)

/-- The directives of the settings, without the blanks around them. -/
def parts (settings : Settings) : List String :=
  ((split (settings.directives.getD "")).map Text.trim).filter (· ≠ "")

/-- The directives of the environment, then the level for all targets, then those of the settings.
-/
def ofSettings (settings : Settings) (env : Environment) : Except Fault EventFilter :=
  (parts settings).foldlM addPart
    ((ofEnvironment env).add ⟨none, some settings.level⟩)

end EventFilter

end ResearchRecords.Logging
