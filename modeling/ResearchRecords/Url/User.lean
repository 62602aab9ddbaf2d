import ResearchRecords.Url.Parser

/-!
The user that an address names before its host, and perhaps a password. Both are percent encoded
there. A name that is the encoding of no text names nobody, and neither does an empty one without a
password.
-/
namespace ResearchRecords.Url

/-- The text that a percent encoded part stands for, if it stands for one. -/
def plain? (s : List Char) : Option String := Text.Utf8.decode? (Text.Percent.decodeBytes s)

/-- The user and the password that the address names. -/
def login? (url : Url) : Option (String × Option String) :=
  match splitMark '@' url.authority.toList with
  | (_, none) => none
  | (named, some _) => do
    let (user, password?) := splitMark ':' named
    let user ← plain? user
    let password? := password?.bind plain?
    if user = "" ∧ password? = none then none else some (user, password?)

/-- The address without the user it names. -/
def withoutLogin (url : Url) : Url :=
  match url.login?, splitMark '@' url.authority.toList with
  | some _, (_, some host) => { url with authority := String.ofList host }
  | _, _ => url

end ResearchRecords.Url
