import ResearchRecords.Text.Blank
import ResearchRecords.Text.Decimal

/-!
Levels of events, from the least severe to the most, and thresholds: the least level that is still
recorded, or none at all.
-/
namespace ResearchRecords.Logging

inductive Level
  | trace
  | debug
  | info
  | warn
  | error
  deriving DecidableEq, Repr

namespace Level

def all : List Level := [trace, debug, info, warn, error]

def name : Level → String
  | trace => "trace"
  | debug => "debug"
  | info => "info"
  | warn => "warn"
  | error => "error"

def title (level : Level) : String := level.name.toUpper

def severity : Level → Nat
  | trace => 0
  | debug => 1
  | info => 2
  | warn => 3
  | error => 4

end Level

/-- The least level that is recorded, if any is. -/
abbrev Threshold := Option Level

namespace Threshold

def admits (threshold : Threshold) (level : Level) : Bool :=
  match threshold with
  | none => false
  | some least => least.severity ≤ level.severity

def ofNumber? : Nat → Option Threshold
  | 0 => some none
  | 1 => some (some .error)
  | 2 => some (some .warn)
  | 3 => some (some .info)
  | 4 => some (some .debug)
  | 5 => some (some .trace)
  | _ => none

/-- A threshold by a number, the higher the more is recorded, or by a name in any case. -/
def ofText? (text : String) : Option Threshold :=
  match Text.natural64? text with
  | some n => ofNumber? n
  | none =>
    let name := Text.lowerAscii text
    if name = "off" then some none
    else (Level.all.find? fun level => level.name == name).map some

end Threshold

end ResearchRecords.Logging
