/-!
Blank characters: those with the Unicode property White_Space. Settings are read without the blanks
around them.
-/
namespace ResearchRecords.Text

/-- The White_Space characters: the ASCII controls from tab to carriage return, the next-line
control and the spaces and line or paragraph separators of every script. -/
def isBlank (c : Char) : Bool :=
  let n := c.toNat
  (9 ≤ n && n ≤ 13) || n == 0x20 || n == 0x85 || n == 0xA0 || n == 0x1680 ||
    (0x2000 ≤ n && n ≤ 0x200A) || n == 0x2028 || n == 0x2029 || n == 0x202F || n == 0x205F ||
    n == 0x3000

def dropBlanks (s : List Char) : List Char := s.dropWhile isBlank

def trimChars (s : List Char) : List Char := (dropBlanks (dropBlanks s).reverse).reverse

/-- A text without the blanks at its two ends. -/
def trim (s : String) : String := String.ofList (trimChars s.toList)

/-- A letter of the ASCII alphabet in its small form; all else is kept. -/
def lowerAscii (s : String) : String := String.ofList (s.toList.map Char.toLower)

end ResearchRecords.Text
