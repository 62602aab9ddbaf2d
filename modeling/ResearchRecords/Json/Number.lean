import ResearchRecords.Json.Fault

/-!
Numbers as written and as kept. A numeral is the digits of a text; a number is an integer of 64 bits
or, when the numeral has a fraction, an exponent or too many digits, a double. The conversion keeps
the digits that fit into 64 bits and scales them by one power of ten.
-/
namespace ResearchRecords.Json

/-- The parts of a written number. Fraction and exponent have digits when they are there. -/
structure Numeral where
  negative : Bool
  whole : List Nat
  fraction : Option (List Nat)
  exponent : Option (Bool × List Nat)
  deriving DecidableEq, Repr

inductive Number
  | natural (n : Nat)
  | negative (n : Nat)
  | real (bits : UInt64)
  deriving DecidableEq, Repr

namespace Number

def found : Number → Found
  | .natural n => .integer n
  | .negative n => .integer (-(n : Int))
  | .real bits => .real bits

def text : Number → String
  | .natural n => toString n
  | .negative n => "-" ++ toString n
  | .real bits => Decimal.shortestText bits

end Number

namespace Numeral

/-- Takes digits into a number as long as it stays below 2^64; the others are left. -/
def absorb : Nat → List Nat → Nat × List Nat
  | n, [] => (n, [])
  | n, d :: rest =>
    if n * 10 + d < 0x10000000000000000 then absorb (n * 10 + d) rest else (n, d :: rest)

def signed (negative : Bool) (f : Float) : Number :=
  .real (if negative then -f else f).toBits

def power (n : Nat) : Float := Float.ofScientific 1 false n

/-- A significand times a power of ten, as a double. Below the range of doubles it is zero. -/
def scale (negative : Bool) (significand : Nat) (exponent : Int) : Except Fault Number :=
  let f := (UInt64.ofNat significand).toFloat
  if significand = 0 then .ok (signed negative 0)
  else if 308 < exponent then .error .numberOutOfRange
  else if 0 ≤ exponent then
    let g := f * power exponent.toNat
    if g.isInf then .error .numberOutOfRange else .ok (signed negative g)
  else if -308 ≤ exponent then .ok (signed negative (f / power (-exponent).toNat))
  else if -616 ≤ exponent then
    .ok (signed negative (f / power 308 / power (-exponent - 308).toNat))
  else .ok (signed negative 0)

/-- The exponent that is written. None stands for one beyond 32 bits. -/
def writtenExponent? (digits : List Nat) : Option Nat :=
  let n := digits.foldl (fun n d => n * 10 + d) 0
  if n < 0x80000000 then some n else none

def scaleWritten (numeral : Numeral) (significand : Nat) (exponent : Int) : Except Fault Number :=
  match numeral.exponent with
  | none => scale numeral.negative significand exponent
  | some (down, digits) =>
    match writtenExponent? digits with
    | some n => scale numeral.negative significand (if down then exponent - n else exponent + n)
    | none =>
      if down = false ∧ significand ≠ 0 then .error .numberOutOfRange
      else .ok (signed numeral.negative 0)

/-- An integer that fits keeps its value, and so does a negative one down to -2^63; the sign of a
negative zero needs a double. -/
def ofInteger (negative : Bool) (n : Nat) : Number :=
  if negative = false then .natural n
  else if 0 < n ∧ n ≤ 0x8000000000000000 then .negative n
  else signed true (UInt64.ofNat n).toFloat

def number (numeral : Numeral) : Except Fault Number :=
  let (n, dropped) := absorb 0 numeral.whole
  match numeral.fraction with
  | none =>
    if numeral.exponent = none ∧ dropped = [] then .ok (ofInteger numeral.negative n)
    else scaleWritten numeral n dropped.length
  | some digits =>
    let (m, ignored) := absorb n digits
    scaleWritten numeral m (dropped.length + ignored.length - digits.length)

end Numeral

end ResearchRecords.Json
