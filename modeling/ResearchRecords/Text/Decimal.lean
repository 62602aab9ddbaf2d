/-!
Natural numbers in decimal digits. Settings may have a plus sign before them, and they are of 64
bits.
-/
namespace ResearchRecords.Text

def isDigit (c : Char) : Bool := '0' ≤ c && c ≤ '9'

def digitValue (c : Char) : Nat := c.toNat - '0'.toNat

def digitsValue (digits : List Char) : Nat :=
  digits.foldl (fun n c => n * 10 + digitValue c) 0

def dropPlus : List Char → List Char
  | '+' :: rest => rest
  | s => s

/-- A number of 64 bits. -/
def natural64? (s : String) : Option Nat :=
  let digits := dropPlus s.toList
  if digits.isEmpty ∨ !digits.all isDigit then none
  else if digitsValue digits < 0x10000000000000000 then some (digitsValue digits) else none

end ResearchRecords.Text
