/-!
# Dates

Seconds since the start of 1970 as dates of the Gregorian calendar, without leap seconds.
-/

namespace EngineDuel

/-- A point in time: seconds since the start of 1970, and nanoseconds. -/
structure Moment where
  seconds : Nat := 0
  nanos : Nat := 0
  deriving DecidableEq, Repr, Inhabited

/-- A date. -/
structure Date where
  year : Nat
  month : Nat
  day : Nat
  deriving DecidableEq, Repr

/-- The date of a day, counted from the first of January 1970. Years are taken from March to
February, so that a leap day is the last of a year, in eras of 400 years. -/
def Date.ofDay (n : Nat) : Date :=
  let shifted := n + 719468
  let era := shifted / 146097
  let dayOfEra := shifted % 146097
  let yearOfEra := (dayOfEra - dayOfEra / 1460 + dayOfEra / 36524 - dayOfEra / 146096) / 365
  let dayOfYear := dayOfEra - (365 * yearOfEra + yearOfEra / 4 - yearOfEra / 100)
  let fromMarch := (5 * dayOfYear + 2) / 153
  let day := dayOfYear - (153 * fromMarch + 2) / 5 + 1
  let month := if fromMarch < 10 then fromMarch + 3 else fromMarch - 9
  let year := yearOfEra + era * 400 + (if month ≤ 2 then 1 else 0)
  ⟨year, month, day⟩

/-- A number with at least so many digits. -/
def padded (width n : Nat) : String :=
  let ds := Nat.toDigits 10 n
  String.ofList (List.replicate (width - ds.length) '0' ++ ds)

namespace Moment

/-- A year; after 9999 with a sign. -/
def yearText (y : Nat) : String := if 9999 < y then "+" ++ toString y else padded 4 y

/-- Date and time of a moment to the second. -/
def toSecond (m : Moment) : String :=
  let date := Date.ofDay (m.seconds / 86400)
  let s := m.seconds % 86400
  yearText date.year ++ "-" ++ padded 2 date.month ++ "-" ++ padded 2 date.day ++ "T"
    ++ padded 2 (s / 3600) ++ ":" ++ padded 2 (s / 60 % 60) ++ ":" ++ padded 2 (s % 60)

/-- The fraction of a second with as many groups of three digits as it needs. -/
def fraction (m : Moment) : String :=
  if m.nanos = 0 then ""
  else if m.nanos % 1000000 = 0 then "." ++ padded 3 (m.nanos / 1000000)
  else if m.nanos % 1000 = 0 then "." ++ padded 6 (m.nanos / 1000)
  else "." ++ padded 9 m.nanos

/-- A moment before a line of output. -/
def stamp (m : Moment) : String := "[" ++ m.toSecond ++ "Z]"

/-- A moment in a record. -/
def timestamp (m : Moment) : String := m.toSecond ++ m.fraction ++ "+00:00"

end Moment

end EngineDuel
