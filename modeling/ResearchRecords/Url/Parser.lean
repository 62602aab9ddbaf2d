import ResearchRecords.Url.Basic
import ResearchRecords.Url.Host

/-!
Reading web addresses. Blanks and controls around the text and line breaks within it are dropped,
backslashes count as slashes, any number of slashes may follow the scheme, and a port that is
usual for the scheme is left out. Addresses of other schemes are refused; a fault in the host or
port of one is found before that.
-/
namespace ResearchRecords.Url

def isAsciiLetter (c : Char) : Bool := c.isAlpha

def isSchemeChar (c : Char) : Bool := c.isAlphanum || c == '+' || c == '-' || c == '.'

/-- The scheme in small letters, and what follows its colon. -/
def splitScheme? (s : List Char) : Option (String × List Char) :=
  match s.takeWhile isSchemeChar, s.dropWhile isSchemeChar with
  | c :: rest, ':' :: after =>
    if isAsciiLetter c then some (String.ofList ((c :: rest).map Char.toLower), after) else none
  | _, _ => none

def isSlash (c : Char) : Bool := c == '/' || c == '\\'

/-- Where the authority ends. -/
def endsAuthority (webLike : Bool) (c : Char) : Bool :=
  c == '/' || c == '?' || c == '#' || (webLike && c == '\\')

/-- Splits at the last occurrence of a character; the first part is none if there is no such one. -/
def splitLast (c : Char) (s : List Char) : Option (List Char) × List Char :=
  match s.reverse.span (· != c) with
  | (_, []) => (none, s)
  | (after, _ :: before) => (some before.reverse, after.reverse)

/-- Splits a host from a port; a colon between brackets is part of the host. -/
def splitPort : Bool → List Char → List Char × Option (List Char)
  | _, [] => ([], none)
  | inside, c :: rest =>
    if c = ':' ∧ inside = false then ([], some rest)
    else
      let inside := if c = '[' then true else if c = ']' then false else inside
      let (host, port) := splitPort inside rest
      (c :: host, port)

def usualPort (scheme : String) : Option Nat :=
  match scheme with
  | "http" => some 80
  | "ws" => some 80
  | "https" => some 443
  | "wss" => some 443
  | "ftp" => some 21
  | _ => none

def portNumber? (digits : List Char) : Option Nat :=
  if digits.all Text.isDigit then
    let n := Text.digitsValue digits
    if n < 0x10000 then some n else none
  else none

/-- A colon with the port, unless there are no digits or the port is the usual one. -/
def portText (scheme : String) : Option (List Char) → Except Fault (List Char)
  | none => .ok []
  | some [] => .ok []
  | some digits =>
    match portNumber? digits with
    | none => .error .invalidPort
    | some n => .ok (if usualPort scheme = some n then [] else ':' :: Nat.toDigits 10 n)

/-- A user with a password, if one is given, before the host. -/
def userText (user : List Char) : List Char :=
  let encode := Text.Percent.encodeChars isUserChar
  let text :=
    match user.span (· != ':') with
    | (name, []) => encode name
    | (name, [_]) => encode name
    | (name, _ :: password) => encode name ++ ':' :: encode password
  if text.isEmpty then [] else text ++ ['@']

def readAuthority (scheme : String) (webLike : Bool) (s : List Char) : Except Fault String := do
  let (user, rest) := splitLast '@' s
  let (host, port) := splitPort false rest
  if host.isEmpty ∧ (webLike ∨ user.isSome ∨ port.isSome) then throw .emptyHost
  let host ← if webLike then Host.parse host else Host.parseOpaque host
  let port ← portText scheme port
  return String.ofList (((user.map userText).getD []) ++ host ++ port)

/-- The segments of a path, which begin after its first slash. -/
def readPath (s : List Char) : List String :=
  let s := match s with
    | [] => []
    | _ :: rest => rest
  let segments := (s.map fun c => if c = '\\' then '/' else c).splitOn '/'
  resolveDots [] (segments.map (Text.Percent.encodeChars isPathChar))

/-- What stands before a mark, and what stands after it, if there is one. -/
def splitMark (mark : Char) (s : List Char) : List Char × Option (List Char) :=
  match s.span (· != mark) with
  | (before, []) => (before, none)
  | (before, _ :: after) => (before, some after)

def encodeAll (keep : Char → Bool) (s : List Char) : String :=
  String.ofList (Text.Percent.encodeChars keep s)

def readWeb (scheme : String) (s : List Char) : Except Fault Url := do
  let s := s.dropWhile isSlash
  let authority ← readAuthority scheme true (s.takeWhile (!endsAuthority true ·))
  let (s, fragment) := splitMark '#' (s.dropWhile (!endsAuthority true ·))
  let (path, query) := splitMark '?' s
  return ⟨scheme, authority, readPath path, query.map (encodeAll isQueryChar),
    fragment.map (encodeAll isFragmentChar)⟩

/-- The fault of an address of another scheme. -/
def refuseOther (scheme : String) (s : List Char) : Except Fault Url := do
  if scheme = "ws" ∨ scheme = "wss" ∨ scheme = "ftp" then
    let _ ← readWeb scheme s
  else if scheme ≠ "file" then
    match s with
    | '/' :: '/' :: s =>
      let _ ← readAuthority scheme false (s.takeWhile (!endsAuthority false ·))
    | _ => pure ()
  throw (.otherScheme scheme)

def isOuter (c : Char) : Bool := c.toNat ≤ 0x20

def trimOuter (s : List Char) : List Char :=
  ((s.dropWhile isOuter).reverse.dropWhile isOuter).reverse

def parse (text : String) : Except Fault Url :=
  match splitScheme? ((trimOuter text.toList).filter (!isIgnored ·)) with
  | none => .error .noScheme
  | some (scheme, s) =>
    if scheme = "http" ∨ scheme = "https" then readWeb scheme s else refuseOther scheme s

end ResearchRecords.Url
