import ResearchRecords.Text.Decimal
import ResearchRecords.Text.Percent
import ResearchRecords.Url.Fault
import ResearchRecords.Url.Punycode
import ResearchRecords.Url.Spelling

/-!
Hosts of web addresses: a domain name in its usual spelling, with labels beyond ASCII encoded, or
an address of version 4 or 6 in its usual form. A name whose last label is a number has to be an
address of version 4.
-/
namespace ResearchRecords.Url.Host

def digitOf? (base : Nat) (c : Char) : Option Nat := do
  let d ← Text.Percent.hexValue? c
  if d < base then some d else none

def numberIn? (base : Nat) (s : List Char) : Option Nat :=
  s.foldlM (fun n c => (digitOf? base c).map (n * base + ·)) 0

/-- A number of an address: sixteen is the base after 0x, eight after a zero, and otherwise ten. -/
def part? : List Char → Option Nat
  | [] => none
  | '0' :: 'x' :: s => numberIn? 16 s
  | '0' :: 'X' :: s => numberIn? 16 s
  | '0' :: c :: s => numberIn? 8 (c :: s)
  | s => numberIn? 10 s

def lastLabel (labels : List (List Char)) : List Char :=
  match labels.reverse with
  | [] => []
  | [] :: label :: _ => label
  | label :: _ => label

def endsInNumber (domain : List Char) : Bool :=
  let last := lastLabel (domain.splitOn '.')
  (!last.isEmpty && last.all Text.isDigit) || (part? last).isSome

def dropLastEmpty (labels : List (List Char)) : List (List Char) :=
  if labels.getLast? = some [] then labels.dropLast else labels

/-- The last number fills the places that the others leave. -/
def ipv4OfParts? (parts : List Nat) : Option Nat :=
  match parts.reverse with
  | [] => none
  | last :: others =>
    let n := others.length
    if n ≤ 3 ∧ others.all (· ≤ 255) ∧ last < Nat.pow 256 (4 - n) then
      some (others.reverse.foldl (fun acc p => acc * 256 + p) 0 * Nat.pow 256 (4 - n) + last)
    else none

def ipv4? (domain : List Char) : Option Nat := do
  ipv4OfParts? (← (dropLastEmpty (domain.splitOn '.')).mapM part?)

def decimal (n : Nat) : List Char := Nat.toDigits 10 n

def ipv4Text (n : Nat) : List Char :=
  ['.'].intercalate
    [decimal (n / 0x1000000), decimal (n / 0x10000 % 256), decimal (n / 0x100 % 256),
      decimal (n % 256)]

def hexGroup? (s : List Char) : Option Nat :=
  if s.isEmpty ∨ 4 < s.length then none else numberIn? 16 s

def octet? (s : List Char) : Option Nat :=
  match s with
  | [] => none
  | '0' :: _ :: _ => none
  | s => (numberIn? 10 s).bind fun n => if n ≤ 255 then some n else none

/-- The two groups that a trailing address of version 4 stands for. -/
def embeddedIpv4? (s : List Char) : Option (List Nat) := do
  match ← (s.splitOn '.').mapM octet? with
  | [a, b, c, d] => some [a * 256 + b, c * 256 + d]
  | _ => none

/-- Groups between colons; the last may be an address of version 4. -/
def groups? : List (List Char) → Option (List Nat)
  | [] => some []
  | [last] => if last.contains '.' then embeddedIpv4? last else (hexGroup? last).map ([·])
  | s :: rest => do return (← hexGroup? s) :: (← groups? rest)

/-- The texts before and after the first double colon. -/
def cutAtGap : List Char → Option (List Char × List Char)
  | ':' :: ':' :: rest => some ([], rest)
  | c :: rest => (cutAtGap rest).map fun r => (c :: r.1, r.2)
  | [] => none

def groupsOf? (s : List Char) : Option (List Nat) :=
  if s.isEmpty then some [] else groups? (s.splitOn ':')

/-- The eight groups of an address; a gap stands for one zero or more. -/
def ipv6? (s : List Char) : Option (List Nat) := do
  match cutAtGap s with
  | none =>
    let groups ← groupsOf? s
    if groups.length = 8 then some groups else none
  | some (before, after) =>
    let high ← if before.contains '.' then none else groupsOf? before
    let low ← groupsOf? after
    let count := high.length + low.length
    if count < 8 then some (high ++ List.replicate (8 - count) 0 ++ low) else none

/-- The first of the longest runs of zeros, by place and length. -/
def longestRun : List Nat → Nat → Nat × Nat
  | [], _ => (0, 0)
  | n :: rest, place =>
    let here := ((n :: rest).takeWhile (· == 0)).length
    let later := longestRun rest (place + 1)
    if here = 0 ∨ here < later.2 then later else (place, here)

def hexGroups (groups : List Nat) : List Char :=
  [':'].intercalate (groups.map (Nat.toDigits 16))

/-- The longest run of two zeros or more is written as a gap. -/
def ipv6Text (groups : List Nat) : List Char :=
  let (place, length) := longestRun groups 0
  if length < 2 then hexGroups groups
  else hexGroups (groups.take place) ++ [':', ':'] ++ hexGroups (groups.drop (place + length))

/-- Characters that no domain name may hold, however they are written. -/
def isForbidden (c : Char) : Bool :=
  c.toNat ≤ 0x20 || c.toNat == 0x7F || "%#/:<>?@[\\]^|".toList.contains c

def domainText? (s : List Char) : Option (List Char) := do
  let decoded ← Text.Utf8.decode? (Text.Percent.decodeBytes s)
  let labels := (Spelling.fold decoded.toList).splitOn '.'
  let domain := ['.'].intercalate (labels.map Punycode.toAscii)
  if domain.any isForbidden then none else some domain

def bracketed? : List Char → Option (List Char)
  | [] => none
  | s => if s.getLast? = some ']' then some s.dropLast else none

def parseIpv6 (s : List Char) : Except Fault (List Char) :=
  match bracketed? s >>= ipv6? with
  | some groups => .ok ('[' :: ipv6Text groups ++ [']'])
  | none => .error .invalidIpv6

def parseDomain (s : List Char) : Except Fault (List Char) :=
  match domainText? s with
  | none => .error .invalidDomain
  | some [] => .error .emptyHost
  | some domain =>
    if endsInNumber domain then
      match ipv4? domain with
      | some n => .ok (ipv4Text n)
      | none => .error .invalidIpv4
    else .ok domain

/-- The host of a web address, in its usual form. -/
def parse : List Char → Except Fault (List Char)
  | [] => .error .emptyHost
  | '[' :: s => parseIpv6 s
  | s => parseDomain s

/-- The host of an address of another kind, which may be empty and is kept as it is. -/
def parseOpaque : List Char → Except Fault (List Char)
  | '[' :: s => parseIpv6 s
  | s =>
    if s.any fun c => "\x00\t\n\x0d #/:<>?@[\\]^|".toList.contains c then
      .error .invalidHostCharacter
    else .ok s

end ResearchRecords.Url.Host
