/-!
# Points in time and their civil dates

A point in time is a number of nanoseconds since the beginning of 1970; before that it is negative.  A civil date is
read off it in the proleptic Gregorian calendar, at offset zero, for the years from -262143 to 262142 only.
-/
namespace Recheck

/-- Nanoseconds since 1970-01-01 00:00:00. -/
abbrev Timestamp := Int

namespace Timestamp

def ofSeconds (seconds nanos : Int) : Timestamp := seconds * 1000000000 + nanos

/-- Whole seconds, rounded down. -/
def seconds (t : Timestamp) : Int := Int.fdiv t 1000000000

def subsecond (t : Timestamp) : Int := Int.fmod t 1000000000

end Timestamp

structure CivilTime where
  year : Int
  month : Int
  day : Int
  hour : Int
  minute : Int
  second : Int
  deriving DecidableEq, Repr

namespace CivilTime

/-- The date that lies `days` days after 1970-01-01, as year, month and day.  Years are counted from March, so that a
leap day is the last of its year, and in cycles of 400. -/
def dateOfDays (days : Int) : Int × Int × Int :=
  let shifted := days + 719468
  let cycle := Int.fdiv shifted 146097
  let dayOfCycle := shifted - cycle * 146097
  let yearOfCycle :=
    Int.fdiv (dayOfCycle - Int.fdiv dayOfCycle 1460 + Int.fdiv dayOfCycle 36524 - Int.fdiv dayOfCycle 146096) 365
  let dayOfYear := dayOfCycle - (365 * yearOfCycle + Int.fdiv yearOfCycle 4 - Int.fdiv yearOfCycle 100)
  let shiftedMonth := Int.fdiv (5 * dayOfYear + 2) 153
  let day := dayOfYear - Int.fdiv (153 * shiftedMonth + 2) 5 + 1
  let month := if shiftedMonth < 10 then shiftedMonth + 3 else shiftedMonth - 9
  let year := yearOfCycle + cycle * 400
  (if month ≤ 2 then year + 1 else year, month, day)

/-- The date and time of day of a point in time, whatever the year. -/
def ofTimestamp (t : Timestamp) : CivilTime :=
  let seconds := t.seconds
  let days := Int.fdiv seconds 86400
  let rest := seconds - days * 86400
  let (year, month, day) := dateOfDays days
  ⟨year, month, day, Int.fdiv rest 3600, Int.fmod (Int.fdiv rest 60) 60, Int.fmod rest 60⟩

/-- A number in decimal with zeros in front, up to `width` digits. -/
def padded (width : Nat) (n : Nat) : String :=
  let digits := Nat.repr n
  String.ofList (List.replicate (width - digits.length) '0') ++ digits

/-- A year: four digits, with a sign in front outside of 0 to 9999. -/
def yearText (year : Int) : String :=
  if year < 0 then "-" ++ padded 4 year.natAbs
  else if year ≤ 9999 then padded 4 year.natAbs
  else "+" ++ padded 4 year.natAbs

/-- Year, month, day, time and offset. -/
def text (c : CivilTime) : String :=
  let two := fun n : Int => padded 2 n.natAbs
  yearText c.year ++ "-" ++ two c.month ++ "-" ++ two c.day ++ " " ++ two c.hour ++ ":" ++ two c.minute ++ ":" ++
    two c.second ++ " +0000"

end CivilTime

def datedYears (year : Int) : Bool := -262143 ≤ year && year ≤ 262142

/-- The date of a point in time as text, in the years for which dates are known. -/
def Timestamp.civilText? (t : Timestamp) : Option String :=
  let c := CivilTime.ofTimestamp t
  if datedYears c.year then some c.text else none

end Recheck
