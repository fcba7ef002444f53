import RecordQuery.Calendar.Date

/-!
Times of day, and dates with a time and an offset from universal time.

* `TimeOfDay` counts to the microsecond.
* `DateTime` carries its offset in seconds, or none; without one it is taken as universal time.
* `DateTime.seconds` is the second it denotes, and `DateTime.toUniversal?` the date and time of that
  second without an offset, which fails exactly when the calendar does not hold it.
* `DateTime.stamp` is the form in which filters compare: universal time, cut to milliseconds.
-/

namespace RecordQuery

/-- A time of day. -/
structure TimeOfDay where
  hour : Nat
  minute : Nat
  second : Nat
  microsecond : Nat
deriving DecidableEq, Repr

namespace TimeOfDay

/-- The time exists on every day. -/
def Valid (t : TimeOfDay) : Prop :=
  t.hour < 24 ∧ t.minute < 60 ∧ t.second < 60 ∧ t.microsecond < 1000000

instance (t : TimeOfDay) : Decidable t.Valid := inferInstanceAs (Decidable (_ ∧ _))

/-- The start of the day. -/
def midnight : TimeOfDay := ⟨0, 0, 0, 0⟩

/-- The full seconds since midnight. -/
def seconds (t : TimeOfDay) : Nat := t.hour * 3600 + t.minute * 60 + t.second

/-- The time that many seconds and microseconds after midnight. -/
def ofSeconds (seconds microsecond : Nat) : TimeOfDay :=
  { hour := seconds / 3600, minute := seconds / 60 % 60, second := seconds % 60, microsecond }

/-- Hour, minute and second in two digits each. -/
def clock (t : TimeOfDay) : Text :=
  Text.padded 2 t.hour ++ ':' :: Text.padded 2 t.minute ++ ':' :: Text.padded 2 t.second

/-- The time, with its microseconds if there are any. -/
def text (t : TimeOfDay) : Text :=
  t.clock ++ if t.microsecond = 0 then [] else '.' :: Text.padded 6 t.microsecond

end TimeOfDay

/-- A date and a time of day, with the offset in seconds by which it is ahead of universal time. -/
structure DateTime where
  date : Date
  time : TimeOfDay
  offset : Option Int
deriving DecidableEq, Repr

namespace DateTime

/-- The date and the time exist, and the offset is less than a day. -/
def Valid (t : DateTime) : Prop :=
  t.date.Valid ∧ t.time.Valid ∧ ∀ o ∈ t.offset, -86400 < o ∧ o < 86400

/-- The seconds from the start of the calendar, in universal time. -/
def seconds (t : DateTime) : Int :=
  (t.date.number * 86400 + t.time.seconds : Nat) - t.offset.getD 0

/-- The same instant in universal time; `none` if it lies before or after the calendar. -/
def toUniversal? (t : DateTime) : Option DateTime :=
  match t.offset with
  | none => some t
  | some _ =>
    if 0 ≤ t.seconds ∧ t.seconds < Date.daysInCalendar * 86400 then
      let seconds := t.seconds.toNat
      some { date := Date.ofNumber (seconds / 86400)
             time := TimeOfDay.ofSeconds (seconds % 86400) t.time.microsecond
             offset := none }
    else none

/-- Date and time of day to the millisecond, with the sign of universal time behind. The year has as
many digits as it needs. -/
def stamp (date : Date) (time : TimeOfDay) : Text :=
  Text.numeral date.year ++ '-' :: Text.padded 2 date.month ++ '-' :: Text.padded 2 date.day ++
    ' ' :: time.clock ++ '.' :: Text.padded 3 (time.microsecond / 1000) ++ ['Z']

/-- An offset as a signed time, with its seconds if there are any. -/
def offsetText (offset : Int) : Text :=
  let seconds := offset.natAbs
  (if offset < 0 then '-' else '+') :: Text.padded 2 (seconds / 3600) ++
    ':' :: Text.padded 2 (seconds / 60 % 60) ++
      if seconds % 60 = 0 then [] else ':' :: Text.padded 2 (seconds % 60)

/-- Date and time with the offset, if there is one, as they stand. -/
def text (t : DateTime) : Text :=
  t.date.text ++ ' ' :: t.time.text ++ (t.offset.map offsetText).getD []

end DateTime

end RecordQuery
