import Reconciler.Text.Decimal

/-! # Points in time

A point in time is a number of microseconds since the start of 1970. Conditions record it as a
calendar date and a time of day.
-/

namespace Reconciler

/-- Microseconds since 1970-01-01T00:00:00Z. -/
abbrev Instant := Int

namespace Instant

/-- Year, month and day of the day with a number, day 0 being the first of 1970.

Days are counted from the first of March of year 0, so that leap days end a year; 146097 days make an
era of 400 years. -/
def calendar (day : Int) : Int × Nat × Nat :=
  let shifted := day + 719468
  let era := shifted.fdiv 146097
  let inEra := (shifted.fmod 146097).toNat
  let yearInEra := (inEra - inEra / 1460 + inEra / 36524 - inEra / 146096) / 365
  let inYear := inEra - (365 * yearInEra + yearInEra / 4 - yearInEra / 100)
  let march := (5 * inYear + 2) / 153
  let dayOfMonth := inYear - (153 * march + 2) / 5 + 1
  let month := if march < 10 then march + 3 else march - 9
  let year := (yearInEra : Int) + era * 400 + (if month ≤ 2 then 1 else 0)
  (year, month, dayOfMonth)

/-- Date and time of day, with microseconds when there are any. -/
def shown (t : Instant) : String :=
  let micros := (t.fmod 1000000).toNat
  let seconds := t.fdiv 1000000
  let inDay := (seconds.fmod 86400).toNat
  let (year, month, day) := calendar (seconds.fdiv 86400)
  s!"{padded 4 year.toNat}-{padded 2 month}-{padded 2 day}T"
    ++ s!"{padded 2 (inDay / 3600)}:{padded 2 (inDay / 60 % 60)}:{padded 2 (inDay % 60)}"
    ++ (if micros = 0 then "" else "." ++ padded 6 micros) ++ "+00:00"

end Instant

end Reconciler
