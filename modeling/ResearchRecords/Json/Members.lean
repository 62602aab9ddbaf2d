/-!
Members: values under names. A name may be given more than once, and then the last value counts.
Ordered members have each name once, in the order of code points.
-/
namespace ResearchRecords.Json

abbrev Members (α : Type) := List (String × α)

namespace Members

variable {α : Type}

/-- Puts a member in its place among ordered ones, over an earlier one of the same name. -/
def insert (name : String) (value : α) : Members α → Members α
  | [] => [(name, value)]
  | (other, held) :: rest =>
    if name = other then (name, value) :: rest
    else if name < other then (name, value) :: (other, held) :: rest
    else (other, held) :: insert name value rest

def ordered (members : Members α) : Members α :=
  members.foldl (fun done m => insert m.1 m.2 done) []

/-- The last value given for a name. -/
def get? (members : Members α) (name : String) : Option α :=
  members.foldl (fun found m => if m.1 = name then some m.2 else found) none

end Members

end ResearchRecords.Json
