import RecordQuery.Value.Display
import RecordQuery.Value.Key

/-!
The placeholders of a filter and the values they stand for.

* `Placeholders.add` puts a value aside under the next key of a field: the field's text with its
  ordinal behind it, where the ordinals of each field count from one. The field is counted before
  its key is written.
* Keys are texts and nothing more. When two fields lead to the same key, the later value replaces
  the earlier one in its place.
* `placeholder` is the token that stands for the value with a given key.
-/

namespace RecordQuery

/-- The values of a filter by their keys, and how many values each field has had. -/
structure Placeholders where
  counters : Table Key Nat := []
  values : Table Text Value := []

namespace Placeholders

/-- The key of a field's value with a given ordinal. -/
def key (field : Value) (ordinal : Nat) : Except Fault Text :=
  field.displayed.map (· ++ Text.numeral ordinal)

/-- The ordinal of the next value of a field. -/
def nextOrdinal (p : Placeholders) (field : Key) : Nat := (p.counters.get? field).getD 0 + 1

/-- The placeholders with one more value counted for a field. -/
def count (p : Placeholders) (field : Key) : Placeholders :=
  { p with counters := p.counters.put field (p.nextOrdinal field) }

/-- Puts a value aside under the next key of its field. The answer is the key, or why there is none.
A field that cannot be counted leaves everything as it is; one that is counted stays counted even if
its text has too many digits for a key, and then the value is not kept. -/
def add (p : Placeholders) (field value : Value) : Except Fault Text × Placeholders :=
  match field.key with
  | .error fault => (.error fault, p)
  | .ok counter =>
    let counted := p.count counter
    match key field (p.nextOrdinal counter) with
    | .error fault => (.error fault, counted)
    | .ok key => (.ok key, { counted with values := counted.values.put key value })

/-- Puts values aside one after the other, and tells what came of each. -/
def addEach (p : Placeholders) : List (Value × Value) → List (Except Fault Text × Placeholders)
  | [] => []
  | (field, value) :: rest =>
    let added := p.add field value
    added :: added.2.addEach rest

/-- The placeholders after values have been put aside one after the other. -/
def addAll (p : Placeholders) (pairs : List (Value × Value)) : Placeholders :=
  pairs.foldl (fun p (field, value) => (p.add field value).2) p

theorem addAll_append (p : Placeholders) (pairs more : List (Value × Value)) :
    p.addAll (pairs ++ more) = (p.addAll pairs).addAll more := List.foldl_append

/-- The number of values that are kept. -/
def size (p : Placeholders) : Nat := p.values.length

end Placeholders

/-- The token that stands for the value with a given key. -/
def placeholder (key : Text) : Text := '{' :: ':' :: key ++ ['}']

end RecordQuery
