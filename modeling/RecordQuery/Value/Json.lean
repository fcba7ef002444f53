import RecordQuery.Value.Display

/-!
Values as compact JSON.

* `Value.json` writes a value without blanks. Tuples are arrays, and what JSON cannot hold is the
  JSON string of its display.
* It fails on a mapping with a key that JSON has no text for, and on an integer with too many digits,
  whether it is a key or a value. What is met first from left to right is named (`Value.jsonKey`),
  each key before its own value.
-/

namespace RecordQuery

/-- The text of a number in JSON, which borrows words for the numbers that JSON lacks. -/
def Binary64.json : Binary64 → Text
  | nan _ => "NaN"
  | infinite negative => Layout.signed negative "Infinity"
  | x => x.text

namespace Value

/-- A truth value in JSON. -/
def jsonBool (b : Bool) : Text := if b then "true" else "false"

/-- The content of the string that a key becomes. -/
def jsonKey : Value → Except Fault Text
  | null => .ok "null"
  | bool b => .ok (jsonBool b)
  | int n => (int n).displayed
  | float x => .ok x.json
  | text t => .ok t
  | operator op => .ok op.text
  | value => .error (.jsonKey value.kind)

mutual

/-- The value as JSON. -/
def json : Value → Except Fault Text
  | null => .ok "null"
  | bool b => .ok (jsonBool b)
  | int n => (int n).displayed
  | float x => .ok x.json
  | text t => .ok (Text.jsonString t)
  | operator op => .ok (Text.jsonString op.text)
  | list items => do
    return '[' :: Text.joined "," (← jsonItems items) ++ [']']
  | tuple items => do
    return '[' :: Text.joined "," (← jsonItems items) ++ [']']
  | mapping entries => do
    return '{' :: Text.joined "," (← jsonEntries entries) ++ ['}']
  | value => .ok (Text.jsonString value.display)
termination_by structural v => v

/-- The elements of an array. -/
def jsonItems : List Value → Except Fault (List Text)
  | [] => .ok []
  | item :: items => do
    let first ← json item
    let rest ← jsonItems items
    return first :: rest
termination_by structural items => items

/-- The members of an object. -/
def jsonEntries : List (Value × Value) → Except Fault (List Text)
  | [] => .ok []
  | entry :: entries => do
    let first ← jsonEntry entry
    let rest ← jsonEntries entries
    return first :: rest
termination_by structural entries => entries

/-- A member of an object: the key, a colon, the value. -/
def jsonEntry : Value × Value → Except Fault Text
  | (key, value) => do
    let name ← jsonKey key
    let content ← json value
    return Text.jsonString name ++ ':' :: content
termination_by structural entry => entry

end

end Value

end RecordQuery
