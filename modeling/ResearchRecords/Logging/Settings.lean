import ResearchRecords.Environment
import ResearchRecords.Json.Layout
import ResearchRecords.Logging.Level

/-!
Settings of the log: the level, where lines go and in which format, the directory and name of log
files, further filter directives, and whether lines name the target of their event. Variables of the
environment come before settings from elsewhere.
-/
namespace ResearchRecords.Logging

inductive Output
  | stderr
  | file
  | both
  deriving DecidableEq, Repr

inductive Format
  | text
  | json
  deriving DecidableEq, Repr

inductive Fault
  | unknownLevel (text : String)
  | unknownOutput (text : String)
  | unknownFormat (text : String)
  | badDirective (text : String) (cause : String)
  | alreadyInstalled
  | directory (cause : String)
  deriving DecidableEq, Repr

def Fault.message : Fault → String
  | .unknownLevel text => "Invalid logging setting: unknown log level '" ++ text ++ "'"
  | .unknownOutput text => "Invalid logging setting: unknown log output '" ++ text ++ "'"
  | .unknownFormat text => "Invalid logging setting: unknown log format '" ++ text ++ "'"
  | .badDirective text cause =>
    "Invalid logging setting: bad filter directive '" ++ text ++ "': " ++ cause
  | .alreadyInstalled =>
    "Failed to install log subscriber: a global default trace dispatcher has already been set"
  | .directory cause => "IO error: " ++ cause

/-- Names in any case and between blanks stand for what they are listed with. -/
def named? (names : List (String × α)) (text : String) : Option α :=
  names.lookup (Text.lowerAscii (Text.trim text))

def Level.names : List (String × Level) :=
  Level.all.map (fun level => (level.name, level)) ++ [("warning", .warn)]

def Output.all : List (String × Output) :=
  [("stderr", .stderr), ("file", .file), ("both", .both)]

def Output.names : List (String × Output) := Output.all ++ [("console", .stderr), ("all", .both)]

def Format.all : List (String × Format) := [("text", .text), ("json", .json)]

def Format.names : List (String × Format) := Format.all ++ [("pretty", .text)]

def Output.name : Output → String
  | .stderr => "stderr"
  | .file => "file"
  | .both => "both"

def Format.name : Format → String
  | .text => "text"
  | .json => "json"

def Level.parse (text : String) : Except Fault Level :=
  match named? Level.names text with
  | some level => .ok level
  | none => .error (.unknownLevel text)

def Output.parse (text : String) : Except Fault Output :=
  match named? Output.names text with
  | some output => .ok output
  | none => .error (.unknownOutput text)

def Format.parse (text : String) : Except Fault Format :=
  match named? Format.names text with
  | some format => .ok format
  | none => .error (.unknownFormat text)

structure Settings where
  level : Level
  output : Output
  format : Format
  directory : String
  filePrefix : String
  directives : Option String
  includeTargets : Bool
  deriving DecidableEq, Repr

namespace Settings

def default : Settings := ⟨.info, .stderr, .text, "./logs", "pass", none, true⟩

/-- A variable that is set replaces the setting held so far. -/
def override (env : Environment) (name : String) (held : α) (parse : String → Except Fault α) :
    Except Fault α :=
  match env.get? name with
  | none => .ok held
  | some text => parse text

/-- Only the plain word for it turns targets off. -/
def targetsOf (text : String) : Bool := text != "false"

def withEnvironment (settings : Settings) (env : Environment) : Except Fault Settings := do
  let level ← override env "LOG_LEVEL" settings.level Level.parse
  let output ← override env "LOG_OUTPUT" settings.output Output.parse
  let format ← override env "LOG_FORMAT" settings.format Format.parse
  let directory ← override env "LOG_DIR" settings.directory .ok
  let directives ← override env "LOG_FILTER" settings.directives fun text => .ok (some text)
  let includeTargets ← override env "LOG_INCLUDE_TARGETS" settings.includeTargets fun text =>
    .ok (targetsOf text)
  return ⟨level, output, format, directory, settings.filePrefix, directives, includeTargets⟩

open Json (Node Layout Value)

def layout : Layout Settings where
  name := "LogConfig"
  fields :=
    [⟨"level", .always, fun room node s => do
        let names := Level.all.map fun level => (level.name, level)
        return { s with level := ← Node.choice room names node }⟩,
      ⟨"output", .always, fun room node s => do
        return { s with output := ← Node.choice room Output.all node }⟩,
      ⟨"format", .always, fun room node s => do
        return { s with format := ← Node.choice room Format.all node }⟩,
      ⟨"log_dir", .always, fun _ node s => do return { s with directory := ← node.path }⟩,
      ⟨"log_file_prefix", .always, fun _ node s => do
        return { s with filePrefix := ← node.string }⟩,
      ⟨"filter_directives", .inLists, fun _ node s => do
        return { s with directives := ← Node.optional Node.string node }⟩,
      ⟨"include_targets", .always, fun _ node s => do
        return { s with includeTargets := ← node.boolean }⟩]
  blank := default

def parse (text : String) : Except Json.Fault Settings :=
  Json.readWith (layout.read Node.maxDepth) (Text.Utf8.encode text)

def value (settings : Settings) : Value :=
  .object
    [("filter_directives", .ofOption .string settings.directives),
      ("format", .string settings.format.name),
      ("include_targets", .bool settings.includeTargets),
      ("level", .string settings.level.name), ("log_dir", .string settings.directory),
      ("log_file_prefix", .string settings.filePrefix), ("output", .string settings.output.name)]

end Settings

end ResearchRecords.Logging
