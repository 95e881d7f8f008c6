import ObjectBoundary.Calendar.Date

/-!
# Timestamps

The instant of a Unix time, written as a date and a time of day in UTC.
-/

namespace ObjectBoundary.Timestamp

/-- The date of a Unix time in UTC. -/
def date (seconds : Int) : Date := Date.ofDayNumber (seconds / 86400)

def timeText (secondOfDay : Nat) : String :=
  Text.paddedDecimal 2 (secondOfDay / 3600) ++ ":" ++
    Text.paddedDecimal 2 (secondOfDay / 60 % 60) ++ ":" ++ Text.paddedDecimal 2 (secondOfDay % 60)

/-- The spelling of a Unix time: the date, `T`, the time of day and `Z`. -/
def text (seconds : Int) : String :=
  (date seconds).text ++ "T" ++ timeText (seconds % 86400).toNat ++ "Z"

/-- The spelling of a Unix time whose year is in the range of dates. -/
def text? (seconds : Int) : Option String :=
  let year := (date seconds).year
  if Date.firstYear ≤ year ∧ year ≤ Date.lastYear then some (text seconds) else none

end ObjectBoundary.Timestamp
