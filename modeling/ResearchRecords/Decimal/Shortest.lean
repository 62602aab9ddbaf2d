/-!
The shortest decimal text of a binary floating-point number. A finite double is an integer times a
power of two, and every real closer to it than to its neighbours reads back as it. Among the
decimals with one digit, then two, and so on, the first that lies in that interval is taken; of
two, the nearer. All of it is exact arithmetic on natural numbers.
-/
namespace ResearchRecords.Decimal

/-- A positive rational by numerator and denominator. -/
structure Ratio where
  num : Nat
  den : Nat

namespace Ratio

def scaled (m : Nat) (exponent : Int) : Ratio :=
  if 0 ≤ exponent then ⟨m * Nat.pow 2 exponent.toNat, 1⟩ else ⟨m, Nat.pow 2 (-exponent).toNat⟩

/-- The natural number below the quotient by a power of ten. -/
def floorAt (x : Ratio) (place : Int) : Nat :=
  if 0 ≤ place then x.num / (x.den * Nat.pow 10 place.toNat)
  else x.num * Nat.pow 10 (-place).toNat / x.den

/-- Compares the rational with a multiple of a power of ten. -/
def compareAt (x : Ratio) (place : Int) (c : Nat) : Ordering :=
  if 0 ≤ place then compare x.num (c * Nat.pow 10 place.toNat * x.den)
  else compare (x.num * Nat.pow 10 (-place).toNat) (c * x.den)

/-- The exponent of the greatest power of ten that is not above a positive rational. -/
def decade (x : Ratio) : Int :=
  if x.den ≤ x.num then ((Nat.toDigits 10 (x.num / x.den)).length : Int) - 1
  else
    let zeros := (List.range 400).find? fun j => x.den ≤ x.num * Nat.pow 10 (j + 1)
    Int.negSucc (zeros.getD 400)

end Ratio

/-- A double as sign, exact value and the interval of reals that read back as it. -/
structure Cell where
  value : Ratio
  low : Ratio
  high : Ratio
  closed : Bool

/-- The cell of a positive double, from its exponent and fraction fields. -/
def Cell.ofFields (exponent fraction : Nat) : Cell :=
  let m := if exponent = 0 then fraction else fraction + 0x10000000000000
  let e : Int := (if exponent = 0 then 1 else (exponent : Int)) - 1075
  let below := if fraction = 0 ∧ 1 < exponent then 1 else 2
  { value := .scaled (4 * m) (e - 2)
    low := .scaled (4 * m - below) (e - 2)
    high := .scaled (4 * m + 2) (e - 2)
    closed := m % 2 == 0 }

def Cell.contains (cell : Cell) (place : Int) (c : Nat) : Bool :=
  match cell.low.compareAt place c, cell.high.compareAt place c with
  | .lt, .gt => true
  | .eq, _ => cell.closed
  | _, .eq => cell.closed
  | _, _ => false

/-- Whether the value is nearer to `c` than to `c + 1`, a tie going to the even one. -/
def Cell.nearerBelow (cell : Cell) (place : Int) (c : Nat) : Bool :=
  let twice : Ratio := ⟨2 * cell.value.num, cell.value.den⟩
  match twice.compareAt place (2 * c + 1) with
  | .lt => true
  | .gt => false
  | .eq => c % 2 == 0

/-- The decimal of the cell at one place, if a neighbour of the value there lies in the cell. -/
def Cell.atPlace? (cell : Cell) (place : Int) : Option (Nat × Int) :=
  let c := cell.value.floorAt place
  match cell.contains place c, cell.contains place (c + 1) with
  | true, true => some (if cell.nearerBelow place c then c else c + 1, place)
  | true, false => some (c, place)
  | false, true => some (c + 1, place)
  | false, false => none

/-- The digits and last place of the shortest decimal. Seventeen digits always suffice. -/
def Cell.shortest (cell : Cell) : Nat × Int :=
  let decade := cell.value.decade
  ((List.range 17).findSome? fun (n : Nat) => cell.atPlace? (decade - (n : Int))).getD (0, 0)

def stripZeros (c : Nat) (place : Int) : Nat × Int :=
  if h : c ≠ 0 ∧ c % 10 = 0 then stripZeros (c / 10) (place + 1) else (c, place)
termination_by c
decreasing_by omega

/-- Positional from 0.00001 up to sixteen digits before the point; beyond that one digit, the others
behind a point, and a signed exponent. -/
def layOut (digits : List Char) (exponent : Int) : List Char :=
  let count : Int := digits.length
  if -5 ≤ exponent ∧ exponent ≤ 15 then
    if count - 1 ≤ exponent then
      digits ++ List.replicate (exponent - count + 1).toNat '0' ++ ['.', '0']
    else if 0 ≤ exponent then
      digits.take (exponent.toNat + 1) ++ '.' :: digits.drop (exponent.toNat + 1)
    else
      ['0', '.'] ++ List.replicate (-exponent - 1).toNat '0' ++ digits
  else
    let fraction := if count = 1 then [] else '.' :: digits.drop 1
    let sign := if exponent < 0 then '-' else '+'
    digits.take 1 ++ fraction ++ ['e', sign] ++ Nat.toDigits 10 exponent.natAbs

/-- The text of a finite double given by its bits. -/
def shortestText (bits : UInt64) : String :=
  let n := bits.toNat
  let sign := if 0x8000000000000000 ≤ n then ['-'] else []
  let exponent := n / 0x10000000000000 % 0x800
  let fraction := n % 0x10000000000000
  if exponent = 0 ∧ fraction = 0 then String.ofList (sign ++ ['0', '.', '0'])
  else
    let raw := (Cell.ofFields exponent fraction).shortest
    let (c, place) := stripZeros raw.1 raw.2
    let digits := Nat.toDigits 10 c
    String.ofList (sign ++ layOut digits (place + digits.length - 1))

end ResearchRecords.Decimal
