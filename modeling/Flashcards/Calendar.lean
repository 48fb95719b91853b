/-!
# Points in time

A point in time is written as date and time of day in UTC. The date is found by counting years of
365.2425 days from the first of March, so that the leap day is the last of its year.
-/

namespace Flashcards.Calendar

/-- A point in time, to the second. -/
structure Moment where
  year : Nat
  month : Nat
  day : Nat
  hour : Nat
  minute : Nat
  second : Nat
  deriving DecidableEq, Repr

/-- The point in time so many seconds after the start of 1970. -/
def Moment.ofUnix (seconds : Nat) : Moment :=
  let days := seconds / 86400 + 719468
  let era := days / 146097
  let dayOfEra := days % 146097
  let yearOfEra :=
    (dayOfEra - dayOfEra / 1460 + dayOfEra / 36524 - dayOfEra / 146096) / 365
  let dayOfYear := dayOfEra - (365 * yearOfEra + yearOfEra / 4 - yearOfEra / 100)
  let monthFromMarch := (5 * dayOfYear + 2) / 153
  let month := if monthFromMarch < 10 then monthFromMarch + 3 else monthFromMarch - 9
  { year := yearOfEra + 400 * era + (if month ≤ 2 then 1 else 0)
    month
    day := dayOfYear - (153 * monthFromMarch + 2) / 5 + 1
    hour := seconds / 3600 % 24
    minute := seconds / 60 % 60
    second := seconds % 60 }

/-- A number with zeros in front, up to the given width. -/
def padded (width n : Nat) : String :=
  let digits := Nat.toDigits 10 n
  String.ofList (List.replicate (width - digits.length) '0' ++ digits)

/-- The date of a point in time. -/
def Moment.date (m : Moment) : String :=
  s!"{padded 4 m.year}-{padded 2 m.month}-{padded 2 m.day}"

/-- A point in time as the files of a job show it. -/
def Moment.stamp (m : Moment) : String :=
  s!"{m.date}T{padded 2 m.hour}:{padded 2 m.minute}:{padded 2 m.second}+00:00"

/-- The time of day with hyphens, as it can stand in a file name. -/
def Moment.clock (m : Moment) : String :=
  s!"{padded 2 m.hour}-{padded 2 m.minute}-{padded 2 m.second}"

end Flashcards.Calendar
