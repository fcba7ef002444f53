import RecordQuery.Value.Json

/-!
Values as literals of the filter language.

* `Value.literal` writes null, truth values and numbers bare. Texts and identifiers are quoted,
  dates are quoted stamps in universal time, and everything else is quoted JSON.
* An integer with too many digits has no literal, nor has an instant outside the calendar.
-/

namespace RecordQuery

namespace Value

/-- The stamp of an instant in universal time. -/
def stamp (t : DateTime) : Except Fault Text :=
  match t.toUniversal? with
  | some u => .ok (DateTime.stamp u.date u.time)
  | none => .error .instantOutOfRange

/-- The value as it stands in a filter. -/
def literal : Value → Except Fault Text
  | bool b => .ok (jsonBool b)
  | int n => (int n).displayed
  | float x => .ok x.text
  | decimal x => .ok x.text
  | text t => .ok (Text.literal t)
  | operator op => .ok (Text.literal (operator op).display)
  | uuid u => .ok (Text.literal u.text)
  | null => .ok "null"
  | datetime t => (stamp t).map Text.literal
  | date d => .ok (Text.literal (DateTime.stamp d .midnight))
  | value => value.json.map Text.literal

end Value

end RecordQuery
