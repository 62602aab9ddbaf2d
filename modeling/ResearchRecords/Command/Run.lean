import ResearchRecords.Client.Pager
import ResearchRecords.Command.Basic

/-!
Carrying out commands. A record is shown as a document of its own: indented when it was asked for by
its id, and on one line in a list. What was written before a failure stays written.
-/
namespace ResearchRecords

/-- Output so far, and how many bytes it may have in all. -/
structure Sink where
  text : String
  capacity : Option Nat
  deriving DecidableEq, Repr

namespace Sink

def unbounded : Sink := ⟨"", none⟩

/-- The output with more text, if there is room for it. -/
def write? (sink : Sink) (text : String) : Option Sink :=
  let grown := sink.text ++ text
  match sink.capacity with
  | none => some { sink with text := grown }
  | some n => if grown.utf8ByteSize ≤ n then some { sink with text := grown } else none

def fullCause : String := "output full"

def writeLine (sink : Sink) (line : String) : Sink × Option CommandFault :=
  match sink.write? (line ++ "\n") with
  | some sink => (sink, none)
  | none => (sink, some (.output fullCause))

/-- Writes a document and ends its line. -/
def writeDocument (sink : Sink) (document : String) : Sink × Option CommandFault :=
  match sink.write? document with
  | some sink => sink.writeLine ""
  | none => (sink, some (.render fullCause))

end Sink

namespace Command

def compactDocument (record : Record) : String := (Document.ofRecord .brief record).compact

def indentedDocument (record : Record) : String := (Document.ofRecord .brief record).pretty

/-- Writes records line by line, up to the first that does not fit. -/
def writeRecords (sink : Sink) : List Record → Sink × Option CommandFault
  | [] => (sink, none)
  | record :: rest =>
    match sink.writeDocument (compactDocument record) with
    | (sink, none) => writeRecords sink rest
    | (sink, some fault) => (sink, some fault)

def finishGet (sink : Sink) (kind : Kind) (id : String) :
    Except ClientFault (Option Record) → Sink × Option CommandFault
  | .error fault => (sink, some (.client fault))
  | .ok none => (sink, some (.notFound kind id))
  | .ok (some record) => sink.writeDocument (indentedDocument record)

def finishSelect (sink : Sink) : Except ClientFault Page → Sink × Option CommandFault
  | .error fault => (sink, some (.client fault))
  | .ok page => writeRecords sink page.records

def finishDelete (sink : Sink) (kind : Kind) (id : String) :
    Except ClientFault Unit → Sink × Option CommandFault
  | .error fault => (sink, some (.client fault))
  | .ok () => sink.writeLine ("Deleted " ++ kind.name ++ " '" ++ id ++ "'")

/-- How a command ends. -/
structure Finish (σ : Type) where
  sink : Sink
  fault : Option CommandFault
  state : σ

variable {σ : Type}

def Finish.of (result : (Sink × Option CommandFault) × σ) : Finish σ :=
  ⟨result.1.1, result.1.2, result.2⟩

/-- Writes all records of a walk. It is none if the walk has not ended after so many steps. -/
def writeAll (transport : Transport σ) : Nat → Pager → Sink → σ → Option (Finish σ)
  | 0, _, _, _ => none
  | steps + 1, pager, sink, state =>
    match pager.next.run transport state with
    | ((none, _), state) => some ⟨sink, none, state⟩
    | ((some (.error fault), _), state) => some ⟨sink, some (.client fault), state⟩
    | ((some (.ok record), pager), state) =>
      match sink.writeDocument (compactDocument record) with
      | (sink, none) => writeAll transport steps pager sink state
      | (sink, some fault) => some ⟨sink, some fault, state⟩

def runKnown (transport : Transport σ) (steps : Nat) (client : Client) (kind : Kind) (sink : Sink)
    (state : σ) : Command → Option (Finish σ)
  | .get _ id including =>
    some (.of (((client.get kind id including).map (finishGet sink kind id)).run transport state))
  | .select _ options =>
    if options.all then
      writeAll transport steps (.start client (options.selector kind)) sink state
    else
      some (.of (((client.select (options.selector kind)).map (finishSelect sink)).run
        transport state))
  | .delete _ id =>
    some (.of (((client.delete kind id).map (finishDelete sink kind id)).run transport state))

def kindName : Command → String
  | .get kind _ _ => kind
  | .select kind _ => kind
  | .delete kind _ => kind

/-- Carries out a command. Only a walk over all pages needs a number of steps. -/
def run (transport : Transport σ) (steps : Nat) (client : Client) (command : Command)
    (sink : Sink) (state : σ) : Option (Finish σ) :=
  match Kind.ofName? command.kindName with
  | none => some ⟨sink, some (.unknownKind command.kindName), state⟩
  | some kind => runKnown transport steps client kind sink state command

end Command

end ResearchRecords
