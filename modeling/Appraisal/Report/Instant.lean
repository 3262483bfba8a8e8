/-!
# Instants

A time in UTC, counted from the start of 1970, and its text by RFC 3339.
-/

namespace Appraisal

structure Instant where
  seconds : Nat
  nanoseconds : Nat
deriving DecidableEq, Repr

/-- A date of the Gregorian calendar. -/
structure Date where
  year : Nat
  month : Nat
  day : Nat
deriving DecidableEq, Repr

/-- The date a number of days after the start of 1970. The days are counted in eras of 400 years that start in
March, so that a leap day is the last day of its year. -/
def Date.ofDays (days : Nat) : Date :=
  let days := days + 719468
  let dayOfEra := days % 146097
  let yearOfEra := (dayOfEra - dayOfEra / 1460 + dayOfEra / 36524 - dayOfEra / 146096) / 365
  let dayOfYear := dayOfEra - (365 * yearOfEra + yearOfEra / 4 - yearOfEra / 100)
  let fromMarch := (5 * dayOfYear + 2) / 153
  let month := if fromMarch < 10 then fromMarch + 3 else fromMarch - 9
  let year := yearOfEra + days / 146097 * 400
  ⟨if month ≤ 2 then year + 1 else year, month, dayOfYear - (153 * fromMarch + 2) / 5 + 1⟩

namespace Instant

/-- A number with zeros in front. -/
def digits (width n : Nat) : String :=
  let s := toString n
  String.ofList (List.replicate (width - s.length) '0') ++ s

/-- The part of a second, in three, six or nine digits. -/
def fraction (nanoseconds : Nat) : String :=
  if nanoseconds = 0 then ""
  else if nanoseconds % 1000000 = 0 then "." ++ digits 3 (nanoseconds / 1000000)
  else if nanoseconds % 1000 = 0 then "." ++ digits 6 (nanoseconds / 1000)
  else "." ++ digits 9 nanoseconds

def text (t : Instant) : String :=
  let d := Date.ofDays (t.seconds / 86400)
  let s := t.seconds % 86400
  digits 4 d.year ++ "-" ++ digits 2 d.month ++ "-" ++ digits 2 d.day ++ "T" ++ digits 2 (s / 3600) ++ ":" ++
    digits 2 (s / 60 % 60) ++ ":" ++ digits 2 (s % 60) ++ fraction t.nanoseconds ++ "Z"

end Instant

end Appraisal
