import ResearchRecords.Text.Decimal

/-!
Flags of the command line. Some are switches and the others take one value; only the names of
included relationships may be given more than once. Each command has flags of its own beside the
common ones.
-/
namespace ResearchRecords.CommandLine

inductive Flag
  | verbose
  | url
  | user
  | password
  | timeout
  | including
  | filter
  | sorting
  | offset
  | limit
  | all
  | help
  | version
  deriving DecidableEq, Repr

namespace Flag

def long : Flag → String
  | verbose => "verbose"
  | url => "url"
  | user => "user"
  | password => "password"
  | timeout => "timeout-secs"
  | including => "include"
  | filter => "filter"
  | sorting => "sort"
  | offset => "offset"
  | limit => "limit"
  | all => "all"
  | help => "help"
  | version => "version"

def short? : Flag → Option Char
  | verbose => some 'v'
  | including => some 'i'
  | filter => some 'f'
  | sorting => some 's'
  | limit => some 'l'
  | all => some 'a'
  | help => some 'h'
  | version => some 'V'
  | _ => none

def isSwitch : Flag → Bool
  | verbose => true
  | all => true
  | help => true
  | version => true
  | _ => false

def mayRepeat (flag : Flag) : Bool := flag == including

def isNumeric : Flag → Bool
  | timeout => true
  | offset => true
  | limit => true
  | _ => false

def admits (flag : Flag) (value : String) : Bool :=
  !flag.isNumeric || (Text.natural64? value).isSome

def common : List Flag := [verbose, url, user, password, timeout, help]

end Flag

/-- Where flags are given: before a command, or after one of the commands. -/
inductive Scope
  | root
  | get
  | select
  | delete
  deriving DecidableEq, Repr

namespace Scope

def flags : Scope → List Flag
  | root => .version :: Flag.common
  | get => .including :: Flag.common
  | select => [.filter, .sorting, .including, .offset, .limit, .all] ++ Flag.common
  | delete => Flag.common

/-- How many arguments that are no flags a command needs; it takes no more. -/
def operandCount : Scope → Nat
  | root => 0
  | get => 2
  | select => 1
  | delete => 2

def ofName? : String → Option Scope
  | "get" => some get
  | "select" => some select
  | "delete" => some delete
  | _ => none

def isCommand (name : String) : Bool := (ofName? name).isSome || name == "help"

def long? (scope : Scope) (name : String) : Option Flag :=
  scope.flags.find? fun flag => flag.long == name

def short? (scope : Scope) (c : Char) : Option Flag :=
  scope.flags.find? fun flag => flag.short? == some c

end Scope

/-- Why arguments do not say what to do; asking for help is among the reasons. -/
inductive Usage
  | help
  | version
  | noArguments
  | noCommand
  | unknownCommand
  | missingOperand
  | unknownArgument
  | repeated
  | missingValue
  | surplusValue
  | badValue
  deriving DecidableEq, Repr

end ResearchRecords.CommandLine
