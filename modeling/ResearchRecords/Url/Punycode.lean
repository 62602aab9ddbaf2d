/-!
Punycode: labels of domain names beyond ASCII, written in ASCII. The ASCII characters come first;
then each other character, from the least on, is a number that says how many places the insertion
moves.
-/
namespace ResearchRecords.Url.Punycode

def digit (n : Nat) : Char :=
  if n < 26 then Char.ofNat ('a'.toNat + n) else Char.ofNat ('0'.toNat + (n - 26))

def isBasic (c : Char) : Bool := c.toNat < 0x80

/-- How far a bias is reduced: one step for each division by 35 that is needed. -/
def reduce (delta steps : Nat) : Nat :=
  if h : 455 < delta then reduce (delta / 35) (steps + 1)
  else 36 * steps + 36 * delta / (delta + 38)
termination_by delta
decreasing_by omega

/-- The bias after a number: it follows the size of the numbers written so far. -/
def adapt (delta count : Nat) (first : Bool) : Nat :=
  let delta := if first then delta / 700 else delta / 2
  reduce (delta + delta / count) 0

def threshold (place bias : Nat) : Nat := max 1 (min 26 (place - bias))

/-- The digits of a number from the least on; each place has a threshold of its own, below which the
last digit lies. -/
def digits (bias place n : Nat) : List Char :=
  if _h : n < threshold place bias then [digit n]
  else
    let rest := n - threshold place bias
    let base := 36 - threshold place bias
    digit (threshold place bias + rest % base) :: digits bias (place + 36) (rest / base)
termination_by n
decreasing_by
  have : 1 ≤ threshold place bias := Nat.le_max_left ..
  exact Nat.lt_of_le_of_lt (Nat.div_le_self ..) (by omega)

structure Progress where
  delta : Nat
  bias : Nat
  handled : Nat
  output : List Char

/-- Writes one character of the input, for the code point that is inserted now. -/
def Progress.visit (basic codePoint : Nat) (p : Progress) (c : Char) : Progress :=
  if c.toNat < codePoint then { p with delta := p.delta + 1 }
  else if c.toNat = codePoint then
    { delta := 0
      bias := adapt p.delta (p.handled + 1) (p.handled == basic)
      handled := p.handled + 1
      output := p.output ++ digits p.bias 36 p.delta }
  else p

/-- Inserts all characters of one code point; `before` is the least one not yet looked at. -/
def Progress.insertAll (label : List Char) (basic before codePoint : Nat) (p : Progress) :
    Progress :=
  let p := { p with delta := p.delta + (codePoint - before) * (p.handled + 1) }
  let p := label.foldl (Progress.visit basic codePoint) p
  { p with delta := p.delta + 1 }

def insertInOrder (codePoint : Nat) : List Nat → List Nat
  | [] => [codePoint]
  | n :: rest =>
    if codePoint < n then codePoint :: n :: rest
    else if codePoint = n then n :: rest
    else n :: insertInOrder codePoint rest

def encode (label : List Char) : List Char :=
  let basic := label.filter isBasic
  let points := (label.filter (!isBasic ·)).foldr (fun c ns => insertInOrder c.toNat ns) []
  let start : Progress := ⟨0, 72, basic.length, if basic.isEmpty then [] else basic ++ ['-']⟩
  let (_, p) := points.foldl (fun (before, p) n =>
    (n + 1, p.insertAll label basic.length before n)) (0x80, start)
  p.output

/-- A label in ASCII; one that has other characters gets the mark of an encoded label. -/
def toAscii (label : List Char) : List Char :=
  if label.all isBasic then label else ['x', 'n', '-', '-'] ++ encode label

end ResearchRecords.Url.Punycode
