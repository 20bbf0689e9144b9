import RecordArchive.Text.Layout

/-! # Dates

The date and time of day of a number of seconds since the start of 1970, in the Gregorian calendar
without leap seconds. Days are counted in cycles of four hundred years from the first of March of
year zero, so that the leap day is the last day of a year. -/

namespace RecordArchive.Calendar

/-- A day. -/
structure Date where
  year : Nat
  month : Nat
  day : Nat
  deriving DecidableEq, Repr

/-- The days of four hundred years. -/
def cycleDays : Nat := 146097

/-- The days from the first of March of year zero to the start of 1970. -/
def epochDays : Nat := 719468

/-- The year inside a cycle of the day with the given number. A year ends early by one leap day in
every four years, except at the end of a century. -/
def yearOfCycle (day : Nat) : Nat := (day - day / 1460 + day / 36524 - day / 146096) / 365

/-- The first day of a year inside a cycle. -/
def firstDay (year : Nat) : Nat := 365 * year + year / 4 - year / 100

/-- The first day of a month, counted from March. -/
def firstDayOfMonth (month : Nat) : Nat := (153 * month + 2) / 5

/-- The day that is the given number of days behind the start of 1970. -/
def dateOfDays (days : Nat) : Date :=
  let day := (days + epochDays) % cycleDays
  let year := yearOfCycle day
  let dayOfYear := day - firstDay year
  let month := (5 * dayOfYear + 2) / 153
  { year := year + 400 * ((days + epochDays) / cycleDays) + (if month < 10 then 0 else 1)
    month := if month < 10 then month + 3 else month - 9
    day := dayOfYear - firstDayOfMonth month + 1 }

/-- The last second that is written as a date, the end of the year 262142. -/
def lastSecond : Nat := 8210266876799

/-- A number with leading zeros. -/
def padded (width value : Nat) : String :=
  let digits := toString value
  String.ofList (List.replicate (width - digits.length) '0') ++ digits

/-- A year: four digits, and a sign in front of more. -/
def yearText (year : Nat) : String := if year ≤ 9999 then padded 4 year else s!"+{year}"

/-- A time as a date and a time of day, or as its number of seconds if it is too far away. -/
def format (seconds : Nat) : String :=
  if lastSecond < seconds then toString seconds
  else
    let date := dateOfDays (seconds / 86400)
    let clock := seconds % 86400
    "-".intercalate [yearText date.year, padded 2 date.month, padded 2 date.day] ++ " "
      ++ ":".intercalate
        [padded 2 (clock / 3600), padded 2 (clock / 60 % 60), padded 2 (clock % 60)]

end RecordArchive.Calendar
