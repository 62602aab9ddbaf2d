/-!
The spelling of host names. Names that differ only in capitals, or in the width of their characters,
are one name, which is spelled with small and narrow characters. Capitals are those of the Latin,
Greek, Cyrillic and Armenian alphabets as they are in use; rare and historic letters, composition,
and forms that are spelled with other characters than their small ones are left as they are.
-/
namespace ResearchRecords.Url.Spelling

/-- Capitals at equal distances, each as far from its small letter as all the others. -/
structure Capitals where
  first : Nat
  last : Nat
  step : Nat
  small : Nat

def capitals : List Capitals :=
  [⟨0x41, 0x5A, 1, 0x61⟩, ⟨0xC0, 0xD6, 1, 0xE0⟩, ⟨0xD8, 0xDE, 1, 0xF8⟩, ⟨0x100, 0x12E, 2, 0x101⟩,
    ⟨0x134, 0x136, 2, 0x135⟩, ⟨0x139, 0x13D, 2, 0x13A⟩, ⟨0x141, 0x147, 2, 0x142⟩,
    ⟨0x14A, 0x176, 2, 0x14B⟩, ⟨0x178, 0x178, 1, 0xFF⟩, ⟨0x179, 0x17D, 2, 0x17A⟩,
    ⟨0x1A0, 0x1A4, 2, 0x1A1⟩, ⟨0x1AF, 0x1AF, 1, 0x1B0⟩, ⟨0x1CD, 0x1DB, 2, 0x1CE⟩,
    ⟨0x1DE, 0x1EE, 2, 0x1DF⟩, ⟨0x1F8, 0x21E, 2, 0x1F9⟩, ⟨0x222, 0x232, 2, 0x223⟩,
    ⟨0x386, 0x386, 1, 0x3AC⟩, ⟨0x388, 0x38A, 1, 0x3AD⟩, ⟨0x38C, 0x38C, 1, 0x3CC⟩,
    ⟨0x38E, 0x38F, 1, 0x3CD⟩, ⟨0x391, 0x3A1, 1, 0x3B1⟩, ⟨0x3A3, 0x3AB, 1, 0x3C3⟩,
    ⟨0x400, 0x40F, 1, 0x450⟩, ⟨0x410, 0x42F, 1, 0x430⟩, ⟨0x460, 0x480, 2, 0x461⟩,
    ⟨0x48A, 0x4BE, 2, 0x48B⟩, ⟨0x4C0, 0x4C0, 1, 0x4CF⟩, ⟨0x4C1, 0x4CD, 2, 0x4C2⟩,
    ⟨0x4D0, 0x52E, 2, 0x4D1⟩, ⟨0x531, 0x556, 1, 0x561⟩, ⟨0x1E00, 0x1E94, 2, 0x1E01⟩,
    ⟨0x1EA0, 0x1EFE, 2, 0x1EA1⟩]

def Capitals.contains (range : Capitals) (n : Nat) : Bool :=
  range.first ≤ n && n ≤ range.last && (n - range.first) % range.step == 0

/-- The narrow form of a character of full width. -/
def narrow (c : Char) : Char :=
  if 0xFF01 ≤ c.toNat ∧ c.toNat ≤ 0xFF5E then Char.ofNat (c.toNat - 0xFEE0)
  else if c = '\u3002' ∨ c = '\uFF0E' ∨ c = '\uFF61' then '.'
  else c

def small (c : Char) : Char :=
  match capitals.find? (·.contains c.toNat) with
  | some range => Char.ofNat (range.small + (c.toNat - range.first))
  | none => c

/-- Characters that only say where a line may be broken. -/
def isBreakMark (c : Char) : Bool :=
  c == '\u00AD' || c == '\u200B' || c == '\u2060' || c == '\uFEFF'

/-- The usual spelling of a name. -/
def fold (name : List Char) : List Char :=
  (name.filter (!isBreakMark ·)).map fun c => small (narrow c)

end ResearchRecords.Url.Spelling
