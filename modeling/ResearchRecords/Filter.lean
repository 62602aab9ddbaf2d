/-!
Filter expressions of the repository's query language. Values stand between apostrophes; inside, a
backslash escapes an apostrophe or a backslash, so that no value can end its quotation. Operands of
"and" and "or" stand between parentheses.
-/
namespace ResearchRecords

inductive Comparison
  | equals
  | notEquals
  | greater
  | greaterOrEqual
  | less
  | lessOrEqual
  | hasMember
  | hasNoMember
  deriving DecidableEq, Repr

inductive Filter
  | verbatim (text : String)
  | compare (field : String) (comparison : Comparison) (value : String)
  | among (field : String) (values : List String)
  | outside (field : String) (values : List String)
  | isNull (field : String) (null : Bool)
  | all (operands : List Filter)
  | any (operands : List Filter)

def Comparison.operator : Comparison → List Char
  | .equals => ['=', '=']
  | .notEquals => ['!', '=']
  | .greater => "=gt=".toList
  | .greaterOrEqual => "=ge=".toList
  | .less => "=lt=".toList
  | .lessOrEqual => "=le=".toList
  | .hasMember => "=hasmember=".toList
  | .hasNoMember => "=hasnomember=".toList

namespace Filter

def escape (c : Char) : List Char := if c = '\'' ∨ c = '\\' then ['\\', c] else [c]

def quoteChars (value : List Char) : List Char := '\'' :: value.flatMap escape ++ ['\'']

/-- A value as it stands in an expression. -/
def quote (value : String) : String := String.ofList (quoteChars value.toList)

/-- Reads a quoted value back, up to the first apostrophe that no backslash escapes. -/
def unquoteRest : List Char → Option (List Char × List Char)
  | [] => none
  | '\'' :: rest => some ([], rest)
  | '\\' :: c :: rest => (unquoteRest rest).map fun r => (c :: r.1, r.2)
  | c :: rest => (unquoteRest rest).map fun r => (c :: r.1, r.2)

def unquote : List Char → Option (List Char × List Char)
  | '\'' :: rest => unquoteRest rest
  | _ => none

def quoteAll (values : List String) : List Char :=
  [','].intercalate (values.map fun v => quoteChars v.toList)

def parenthesize (operand : List Char) : List Char := '(' :: operand ++ [')']

mutual

def chars : Filter → List Char
  | verbatim text => text.toList
  | compare field comparison value =>
    field.toList ++ comparison.operator ++ quoteChars value.toList
  | among field values => field.toList ++ "=in=(".toList ++ quoteAll values ++ [')']
  | outside field values => field.toList ++ "=out=(".toList ++ quoteAll values ++ [')']
  | isNull field null =>
    field.toList ++ "=isnull=".toList ++ (if null then "true" else "false").toList
  | all operands => [';'].intercalate (operandChars operands)
  | any operands => [','].intercalate (operandChars operands)

def operandChars : List Filter → List (List Char)
  | [] => []
  | operand :: rest => parenthesize operand.chars :: operandChars rest

end

def text (filter : Filter) : String := String.ofList filter.chars

end Filter

end ResearchRecords
