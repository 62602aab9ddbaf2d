import ResearchRecords.Logging.Directive

/-!
What logging leaves behind. A journal can be installed once; it has the lines on standard error,
the lines in a file, and whether the directory of log files was made. The files that stand in the
working directory decide whether it can be made.
-/
namespace ResearchRecords.Logging

structure Event where
  target : String
  level : Level
  text : String
  deriving DecidableEq, Repr

structure Line where
  format : Format
  level : Level
  text : String
  showsTarget : Bool
  deriving DecidableEq, Repr

structure Journal where
  settings : Settings
  filter : EventFilter

namespace Journal

/-- The parts of a path below the working directory. -/
def pathParts (path : String) : List String :=
  ((path.toList.splitOn '/').map String.ofList).filter fun part => part ≠ "" && part ≠ "."

/-- A file in the place of the directory, or of one above it, is in the way. -/
def makeDirectory (files : List String) (path : String) : Except Fault Unit :=
  match pathParts path with
  | [] => .ok ()
  | [name] =>
    if files.contains name then .error (.directory "File exists (os error 17)") else .ok ()
  | name :: _ =>
    if files.contains name then .error (.directory "Not a directory (os error 20)") else .ok ()

def writesFile (settings : Settings) : Bool := settings.output != .stderr

def writesStderr (settings : Settings) : Bool := settings.output != .file

/-- The journal of the settings, unless one is installed already. -/
def install (installed : Option Journal) (settings : Settings) (env : Environment)
    (files : List String) : Except Fault Journal := do
  let filter ← EventFilter.ofSettings settings env
  if writesFile settings then makeDirectory files settings.directory
  if installed.isSome then throw .alreadyInstalled
  return ⟨settings, filter⟩

/-- The lines of the events that are recorded. -/
def lines (journal : Journal) (events : List Event) : List Line :=
  (events.filter fun e => journal.filter.admits e.target e.level).map fun e =>
    ⟨journal.settings.format, e.level, e.text, journal.settings.includeTargets⟩

def stderrLines (journal : Journal) (events : List Event) : List Line :=
  if writesStderr journal.settings then journal.lines events else []

def fileLines (journal : Journal) (events : List Event) : List Line :=
  if writesFile journal.settings then journal.lines events else []

/-- Whether the names of log files begin with the name of the settings and a dot. -/
def namesFiles (settings : Settings) : Bool := settings.filePrefix != ""

end Journal

end ResearchRecords.Logging
