import RecordQuery.Fault
import RecordQuery.Number.Layout
import RecordQuery.Value.Basic

/-!
The text of a value.

* `Value.display` is how a value is written on its own, in field names, paths and query strings: a
  text as it is, numbers and times in their usual forms.
* `Value.inspect` is how it is written inside a list, a tuple or a mapping, where texts are quoted
  and the kind of a value stays visible.
* Both write integers of any length. `Value.displayed` is the text that a value has only if no
  integer in it has too many digits (`Value.overlong`).
-/

namespace RecordQuery

/-- The 32 hexadecimal digits of an identifier, in five groups. -/
def Uuid.text (u : Uuid) : Text :=
  let digits := Text.hexadecimal 32 u.bits.toNat
  Text.joined "-" [digits.take 8, (digits.drop 8).take 4, (digits.drop 12).take 4,
    (digits.drop 16).take 4, digits.drop 20]

namespace Value

/-- A constructor's name with its arguments in parentheses. -/
def application (name : Text) (arguments : List Text) : Text :=
  name ++ '(' :: Text.joined ", " arguments ++ [')']

/-- The arguments of a time of day. Seconds and microseconds are left out if they and all that
follows are zero. -/
def timeArguments (t : TimeOfDay) : List Text :=
  let parts := [t.hour, t.minute] ++
    if t.microsecond ≠ 0 then [t.second, t.microsecond]
    else if t.second ≠ 0 then [t.second] else []
  parts.map Text.numeral

/-- The arguments of a date. -/
def dateArguments (d : Date) : List Text := [d.year, d.month, d.day].map Text.numeral

/-- An offset as a span of full days and the seconds that remain. -/
def spanArguments (offset : Int) : List Text :=
  let days := offset.fdiv 86400
  let seconds := offset.fmod 86400
  (if days = 0 then [] else ["days=" ++ Text.signedNumeral days]) ++
    if seconds = 0 then [] else ["seconds=" ++ Text.signedNumeral seconds]

/-- The zone of an offset. Universal time has a name of its own. -/
def inspectedZone (offset : Int) : Text :=
  if offset = 0 then "datetime.timezone.utc"
  else application "datetime.timezone" [application "datetime.timedelta" (spanArguments offset)]

/-- A truth value in words. -/
def inspectedBool (b : Bool) : Text := if b then "True" else "False"

mutual

/-- How a value is written inside another one. -/
def inspect : Value → Text
  | null => "None"
  | bool b => inspectedBool b
  | int n => Text.signedNumeral n
  | float x => x.text
  | decimal x => application "Decimal" [Text.inspected x.text]
  | text t => Text.inspected t
  | uuid u => application "UUID" [Text.inspected u.text]
  | datetime t =>
    application "datetime.datetime" (dateArguments t.date ++ timeArguments t.time ++
      (t.offset.map fun o => "tzinfo=" ++ inspectedZone o).toList)
  | date d => application "datetime.date" (dateArguments d)
  | time t => application "datetime.time" (timeArguments t)
  | bytes bs => Text.inspectedBytes bs
  | list items => '[' :: Text.joined ", " (inspectItems items) ++ [']']
  | tuple [item] => '(' :: inspect item ++ [',', ')']
  | tuple items => '(' :: Text.joined ", " (inspectItems items) ++ [')']
  | mapping entries => '{' :: Text.joined ", " (inspectEntries entries) ++ ['}']
  | operator op =>
    "<FilterOperator." ++ op.name ++ ": " ++ Text.inspected op.text ++ ">"
termination_by structural v => v

/-- How the items of a list are written. -/
def inspectItems : List Value → List Text
  | [] => []
  | item :: items => inspect item :: inspectItems items
termination_by structural items => items

/-- How the entries of a mapping are written. -/
def inspectEntries : List (Value × Value) → List Text
  | [] => []
  | entry :: entries => inspectEntry entry :: inspectEntries entries
termination_by structural entries => entries

/-- An entry of a mapping: the key, a colon, the value. -/
def inspectEntry : Value × Value → Text
  | (key, value) => inspect key ++ ':' :: ' ' :: inspect value
termination_by structural entry => entry

end

/-- How a value is written on its own. -/
def display : Value → Text
  | text t => t
  | decimal x => x.text
  | uuid u => u.text
  | datetime t => t.text
  | date d => d.text
  | time t => t.text
  | operator op => "FilterOperator." ++ op.name
  | value => value.inspect

mutual

/-- An integer with too many digits is part of the text of the value. -/
def overlong : Value → Bool
  | int n => Text.exceedsLimit n
  | list items => overlongItems items
  | tuple items => overlongItems items
  | mapping entries => overlongEntries entries
  | _ => false
termination_by structural v => v

/-- An integer with too many digits is part of the text of an item. -/
def overlongItems : List Value → Bool
  | [] => false
  | item :: items => overlong item || overlongItems items
termination_by structural items => items

/-- An integer with too many digits is part of the text of an entry. -/
def overlongEntries : List (Value × Value) → Bool
  | [] => false
  | entry :: entries => overlongEntry entry || overlongEntries entries
termination_by structural entries => entries

/-- An integer with too many digits is part of the text of the key or of the value. -/
def overlongEntry : Value × Value → Bool
  | (key, value) => overlong key || overlong value
termination_by structural entry => entry

end

/-- How a value is written on its own, unless an integer in it has too many digits. -/
def displayed (v : Value) : Except Fault Text :=
  if v.overlong then .error .tooManyDigits else .ok v.display

theorem displayed_of_overlong {v : Value} (h : v.overlong = true) :
    v.displayed = .error .tooManyDigits := by
  rw [displayed, if_pos h]

theorem displayed_of_fits {v : Value} (h : v.overlong = false) : v.displayed = .ok v.display := by
  rw [displayed, h]
  rfl

theorem displayed_eq_ok_iff {v : Value} {t : Text} :
    v.displayed = .ok t ↔ v.overlong = false ∧ t = v.display := by
  cases h : v.overlong with
  | true => simp [displayed_of_overlong h]
  | false => simp [displayed_of_fits h, eq_comm]

end Value

end RecordQuery
