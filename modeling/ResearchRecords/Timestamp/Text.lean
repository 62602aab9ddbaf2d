import ResearchRecords.Text.Blank
import ResearchRecords.Text.Decimal
import ResearchRecords.Timestamp.Basic

/-!
Timestamps as text. They are written as RFC 3339 has it, in universal time, with as many groups of
three fractional digits as are needed. The reader is more generous: blanks may stand before each
number and separator of the fields, years may have a sign and any number of digits, and any offset
below a day may be given, in several spellings.
-/
namespace ResearchRecords.Timestamp

open Calendar
open Text (isDigit digitValue digitsValue)

inductive Fault
  | premature
  | outOfRange
  | invalid
  | trailing
  | impossible
  deriving DecidableEq, Repr

def Fault.message : Fault → String
  | .premature => "premature end of input"
  | .outOfRange => "input is out of range"
  | .invalid => "input contains invalid characters"
  | .trailing => "trailing input"
  | .impossible => "no possible date and time matching input"

def padded (width n : Nat) : List Char :=
  let digits := Nat.toDigits 10 n
  List.replicate (width - digits.length) '0' ++ digits

/-- Four digits, with a sign outside of the years 0 to 9999. -/
def yearText (year : Int) : List Char :=
  if 0 ≤ year ∧ year ≤ 9999 then padded 4 year.toNat
  else (if year < 0 then '-' else '+') :: padded 4 year.natAbs

def fractionText (nanosecond : Nat) : List Char :=
  if nanosecond = 0 then []
  else if nanosecond % 1000000 = 0 then '.' :: padded 3 (nanosecond / 1000000)
  else if nanosecond % 1000 = 0 then '.' :: padded 6 (nanosecond / 1000)
  else '.' :: padded 9 nanosecond

def chars (t : Timestamp) : List Char :=
  yearText t.date.year ++ '-' :: padded 2 t.date.month ++ '-' :: padded 2 t.date.day ++
    'T' :: padded 2 t.hour ++ ':' :: padded 2 t.minute ++ ':' :: padded 2 t.second ++
    fractionText t.nanosecond ++ ['Z']

def text (t : Timestamp) : String := String.ofList t.chars

/-- One digit at least and at most so many. Numbers of 64 bits are read. -/
def number (most : Nat) (s : List Char) : Except Fault (Nat × List Char) :=
  let digits := (s.take most).takeWhile isDigit
  if s = [] then .error .premature
  else if digits = [] then .error .invalid
  else if digitsValue digits < 0x8000000000000000 then .ok (digitsValue digits, s.drop digits.length)
  else .error .outOfRange

/-- A number that has to lie in a range. -/
def field (low high : Nat) (s : List Char) : Except Fault (Nat × List Char) := do
  let (n, rest) ← number 2 (Text.dropBlanks s)
  if low ≤ n ∧ n ≤ high then return (n, rest) else throw .outOfRange

/-- A year without a sign has at most four digits. -/
def year (s : List Char) : Except Fault (Int × List Char) := do
  let (n, rest) ←
    match Text.dropBlanks s with
    | '-' :: rest => do
      let (n, rest) ← number rest.length rest
      pure (-(n : Int), rest)
    | '+' :: rest => do
      let (n, rest) ← number rest.length rest
      pure ((n : Int), rest)
    | s => do
      let (n, rest) ← number 4 s
      pure ((n : Int), rest)
  if -0x80000000 ≤ n ∧ n < 0x80000000 then return (n, rest) else throw .outOfRange

def literal (c : Char) (s : List Char) : Except Fault (List Char) :=
  match Text.dropBlanks s with
  | [] => .error .premature
  | d :: rest => if d = c then .ok rest else .error .invalid

/-- An optional fraction of a second. Nine digits count, and those after them are passed over. -/
def fraction : List Char → Except Fault (Nat × List Char)
  | '.' :: s => do
    let (n, rest) ← number 9 s
    return (n * Nat.pow 10 (9 - (s.length - rest.length)), rest.dropWhile isDigit)
  | s => .ok (0, s)

/-- Two digits. A character beyond ASCII fills the place of both. -/
def digitPair : List Char → Except Fault (Option (Nat × Nat) × List Char)
  | a :: b :: rest =>
    if isDigit a ∧ isDigit b then .ok (some (digitValue a, digitValue b), rest)
    else .ok (none, rest)
  | [a] => if a.toNat < 0x80 then .error .premature else .ok (none, [])
  | [] => .error .premature

def offsetSign : List Char → Except Fault (Bool × List Char)
  | [] => .error .premature
  | '+' :: rest => .ok (false, rest)
  | '-' :: rest => .ok (true, rest)
  | '\u2212' :: rest => .ok (true, rest)
  | _ => .error .invalid

def isOffsetJoint (c : Char) : Bool := c == ':' || Text.isBlank c

/-- Hours and minutes with a sign, in minutes. -/
def signedOffset (s : List Char) : Except Fault (Int × List Char) := do
  let (negative, s) ← offsetSign s
  let (hours, s) ← digitPair s
  match hours with
  | none => throw .invalid
  | some (h₁, h₂) =>
    let (minutes, s) ← digitPair (s.dropWhile isOffsetJoint)
    match minutes with
    | none => throw .invalid
    | some (m₁, m₂) =>
      if 6 ≤ m₁ then throw .outOfRange
      let total : Int := ((h₁ * 10 + h₂) * 60 + m₁ * 10 + m₂ : Nat)
      return (if negative then -total else total, s)

def isUtc (s : List Char) : Bool := (s.take 3).map Char.toUpper == ['U', 'T', 'C']

def offset (s : List Char) : Except Fault (Int × List Char) :=
  if isUtc s then .ok (0, s.drop 3)
  else
    match s with
    | 'Z' :: rest => .ok (0, rest)
    | 'z' :: rest => .ok (0, rest)
    | s => signedOffset s

def separator : List Char → Except Fault (List Char)
  | [] => .error .premature
  | c :: rest => if c = 't' ∨ c = 'T' ∨ c = ' ' then .ok rest else .error .invalid

/-- The moment that shows these fields at this offset. -/
def ofLocal (date : Date) (hour minute second nanosecond : Nat) (offset : Int) :
    Except Fault Timestamp :=
  let minutes : Int := (hour * 60 + minute : Nat) - offset
  let date := if minutes < 0 then date.previous else if 1440 ≤ minutes then date.next else date
  let ofDay := (minutes % 1440).toNat
  match ofFields? date (ofDay / 60) (ofDay % 60) second nanosecond with
  | some t => .ok t
  | none => .error .impossible

def parseChars (s : List Char) : Except Fault Timestamp := do
  let (year, s) ← year s
  let s ← literal '-' s
  let (month, s) ← field 1 12 s
  let s ← literal '-' s
  let (day, s) ← field 1 31 s
  let s ← separator s
  let (hour, s) ← field 0 23 s
  let s ← literal ':' s
  let (minute, s) ← field 0 59 s
  let s ← literal ':' s
  let (second, s) ← field 0 60 s
  let (nanosecond, s) ← fraction s
  let (offset, s) ← offset (Text.dropBlanks s)
  if Text.dropBlanks s ≠ [] then throw .trailing
  let date : Date := ⟨year, month, day⟩
  if date.isValid = false then throw .outOfRange
  if offset ≤ -1440 ∨ 1440 ≤ offset then throw .outOfRange
  ofLocal date hour minute second nanosecond offset

def parse (s : String) : Except Fault Timestamp := parseChars s.toList

end ResearchRecords.Timestamp
