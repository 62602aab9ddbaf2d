/-!
Points in time, as calendar fields in universal time with nanoseconds. A second may have the number
60, for a leap second. The years reach from -262143 to 262142.
-/
namespace ResearchRecords

namespace Calendar

def isLeapYear (year : Int) : Bool :=
  year % 4 == 0 && (year % 100 != 0 || year % 400 == 0)

def daysInMonth (year : Int) (month : Nat) : Nat :=
  match month with
  | 2 => if isLeapYear year then 29 else 28
  | 4 => 30
  | 6 => 30
  | 9 => 30
  | 11 => 30
  | _ => 31

structure Date where
  year : Int
  month : Nat
  day : Nat
  deriving DecidableEq, Repr

namespace Date

def isValid (d : Date) : Bool :=
  -262143 ≤ d.year && d.year ≤ 262142 && 1 ≤ d.month && d.month ≤ 12 && 1 ≤ d.day &&
    d.day ≤ daysInMonth d.year d.month

def next (d : Date) : Date :=
  if d.day < daysInMonth d.year d.month then ⟨d.year, d.month, d.day + 1⟩
  else if d.month < 12 then ⟨d.year, d.month + 1, 1⟩
  else ⟨d.year + 1, 1, 1⟩

def previous (d : Date) : Date :=
  if 1 < d.day then ⟨d.year, d.month, d.day - 1⟩
  else if 1 < d.month then ⟨d.year, d.month - 1, daysInMonth d.year (d.month - 1)⟩
  else ⟨d.year - 1, 12, 31⟩

end Date

end Calendar

structure Timestamp where
  date : Calendar.Date
  hour : Nat
  minute : Nat
  second : Nat
  nanosecond : Nat
  date_valid : date.isValid = true
  hour_lt : hour < 24
  minute_lt : minute < 60
  second_le : second ≤ 60
  nanosecond_lt : nanosecond < 1000000000
  deriving DecidableEq, Repr

namespace Timestamp

/-- The fields as a timestamp, if they are in their ranges. -/
def ofFields? (date : Calendar.Date) (hour minute second nanosecond : Nat) : Option Timestamp :=
  if h : date.isValid = true ∧ hour < 24 ∧ minute < 60 ∧ second ≤ 60 ∧ nanosecond < 1000000000 then
    some ⟨date, hour, minute, second, nanosecond, h.1, h.2.1, h.2.2.1, h.2.2.2.1, h.2.2.2.2⟩
  else none

theorem ofFields?_eq (t : Timestamp) :
    ofFields? t.date t.hour t.minute t.second t.nanosecond = some t :=
  dif_pos ⟨t.date_valid, t.hour_lt, t.minute_lt, t.second_le, t.nanosecond_lt⟩

end Timestamp

end ResearchRecords
