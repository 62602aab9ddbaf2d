import ResearchRecords.Text.Percent
import ResearchRecords.Url.Fault

/-!
Web addresses: scheme, authority, the segments of a path, and perhaps a query and a fragment. Each
part is kept as it is written in the address, so characters that may not stand there are percent
encoded. A path has one segment at least, and it ends in a slash when the last one is empty.
-/
namespace ResearchRecords

structure Url where
  scheme : String
  authority : String
  path : List String
  query : Option String
  fragment : Option String
  deriving DecidableEq, Repr

namespace Url

def isShown (c : Char) : Bool := 0x20 < c.toNat && c.toNat < 0x7F

def isFragmentChar (c : Char) : Bool := isShown c && !"\"<>`".toList.contains c

def isPathChar (c : Char) : Bool := isFragmentChar c && !"#?\x7b\x7d".toList.contains c

/-- In one segment of a path, separators and percent signs are encoded too. -/
def isSegmentChar (c : Char) : Bool := isPathChar c && !"/%\\".toList.contains c

def isQueryChar (c : Char) : Bool := isShown c && !"\"#<>'".toList.contains c

def isUserChar (c : Char) : Bool := isPathChar c && !"/:;=@[\\]^|".toList.contains c

def isSingleDot (s : List Char) : Bool :=
  s.map Char.toLower == ['.'] || s.map Char.toLower == "%2e".toList

def isDoubleDot (s : List Char) : Bool :=
  ["..", "%2e%2e", "%2e.", ".%2e"].any fun t => s.map Char.toLower == t.toList

/-- Carries out the dot segments: a single dot is dropped, and a double one takes the segment before
it away. A path that ends in one of them ends in a slash. The segments done come last first. -/
def resolveDots : List String → List (List Char) → List String
  | done, [] => done.reverse
  | done, [last] =>
    if isDoubleDot last then done.tail.reverse ++ [""]
    else if isSingleDot last then done.reverse ++ [""]
    else done.reverse ++ [String.ofList last]
  | done, s :: rest =>
    if isDoubleDot s then resolveDots done.tail rest
    else if isSingleDot s then resolveDots done rest
    else resolveDots (String.ofList s :: done) rest

def endsInSlash (path : List String) : Bool := path.getLast? == some ""

/-- The same path with a slash at its end. -/
def closePath (path : List String) : List String :=
  if endsInSlash path then path else path ++ [""]

def pathText (path : List String) : String := String.join (path.map ("/" ++ ·))

/-- Characters that are passed over wherever they stand. -/
def isIgnored (c : Char) : Bool := c == '\t' || c == '\n' || c == '\x0d'

/-- Appends a segment. A lone dot or two are no segment and change nothing; ignored characters are
dropped, and what is left may then be a dot segment, which is carried out. -/
def appendSegment (path : List String) (segment : String) : List String :=
  if segment = "." ∨ segment = ".." then path
  else
    let kept := segment.toList.filter (!isIgnored ·)
    resolveDots path.reverse [Text.Percent.encodeChars isSegmentChar kept]

def suffix (mark : String) : Option String → String
  | none => ""
  | some s => mark ++ s

def text (url : Url) : String :=
  url.scheme ++ "://" ++ url.authority ++ pathText url.path ++ suffix "?" url.query ++
    suffix "#" url.fragment

/-- The address with a slash at the end of its path. -/
def closed (url : Url) : Url := { url with path := closePath url.path }

/-- The address of a sibling of the last segment, without query and fragment. -/
def sibling (url : Url) (segments : List String) : Url :=
  { url with path := url.path.dropLast ++ segments, query := none, fragment := none }

def push (url : Url) (segment : String) : Url :=
  { url with path := appendSegment url.path segment }

/-- Adds pairs to the query. -/
def withPairs (url : Url) (pairs : List (String × Option String)) : Url :=
  if pairs.isEmpty then url
  else
    let added := Text.Form.encodePairs pairs
    { url with query := some ((url.query.map (· ++ "&")).getD "" ++ added) }

end Url

end ResearchRecords
