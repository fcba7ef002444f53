import RecordQuery.Text

/-!
Dates of the proleptic Gregorian calendar and their numbers.

* `Date.Valid` says which year, month and day make a date; the years run from 1 to 9999.
* `Date.number` counts the days since the first of January of year 1, and `Date.ofNumber` finds the
  date again.
-/

namespace RecordQuery

/-- A day of the calendar. -/
structure Date where
  year : Nat
  month : Nat
  day : Nat
deriving DecidableEq, Repr

namespace Date

/-- Every fourth year is a leap year, but of the full centuries only every fourth. -/
def isLeap (year : Nat) : Bool := year % 4 = 0 ∧ (year % 100 ≠ 0 ∨ year % 400 = 0)

/-- The lengths of the months of a year, in their order. -/
def monthLengths (year : Nat) : List Nat :=
  [31, if isLeap year then 29 else 28, 31, 30, 31, 30, 31, 31, 30, 31, 30, 31]

/-- The number of days in a month, zero if there is no such month. -/
def daysIn (year month : Nat) : Nat :=
  if month = 0 then 0 else (monthLengths year).getD (month - 1) 0

/-- The year lies in the calendar, and the month and the day exist in it. -/
def Valid (d : Date) : Prop :=
  1 ≤ d.year ∧ d.year ≤ 9999 ∧ 1 ≤ d.day ∧ d.day ≤ daysIn d.year d.month

instance (d : Date) : Decidable d.Valid := inferInstanceAs (Decidable (_ ∧ _))

/-- The days in the first `years` years of the calendar. -/
def daysInYears (years : Nat) : Nat := years * 365 + years / 4 - years / 100 + years / 400

/-- The number of days from the first day of the calendar to this one. -/
def number (d : Date) : Nat :=
  let months := (monthLengths d.year).take (d.month - 1)
  daysInYears (d.year - 1) + months.foldl (· + ·) 0 + (d.day - 1)

/-- The number of full years before a day. The mean length of a year gives it to within one. -/
def yearsBefore (number : Nat) : Nat :=
  let estimate := number * 400 / 146097
  if number < daysInYears estimate then estimate - 1
  else if daysInYears (estimate + 1) ≤ number then estimate + 1
  else estimate

/-- The number of full months before a day of the year, and the days that remain. -/
def monthsBefore : List Nat → Nat → Nat × Nat
  | [], rest => (0, rest)
  | length :: lengths, rest =>
    if rest < length then (0, rest)
    else
      let (months, days) := monthsBefore lengths (rest - length)
      (months + 1, days)

/-- The date with a given number. -/
def ofNumber (number : Nat) : Date :=
  let year := yearsBefore number + 1
  let (months, days) := monthsBefore (monthLengths year) (number - daysInYears (year - 1))
  { year, month := months + 1, day := days + 1 }

/-- The number of days in the calendar. -/
def daysInCalendar : Nat := daysInYears 9999

/-- The date with its year in four digits. -/
def text (d : Date) : Text :=
  Text.padded 4 d.year ++ '-' :: Text.padded 2 d.month ++ '-' :: Text.padded 2 d.day

end Date

end RecordQuery
