import RecordQuery.Calendar.DateTime
import RecordQuery.Filter.Operator
import RecordQuery.Number.Decimal
import RecordQuery.Number.Binary64
import RecordQuery.Table

/-!
The values that callers hand in: what a filter compares with, what a page number may be, what an
answer from the server holds.

* `Value` has a constructor for each kind of value. Mappings keep their entries in the order in
  which they were given, and their keys are values as well.
* `Kind` names the kinds, `Value.kind` gives the kind of a value, and `Kind.name` is the name by
  which messages call it.
-/

namespace RecordQuery

/-- A universally unique identifier, as its 128 bits. -/
structure Uuid where
  bits : BitVec 128
deriving DecidableEq, Repr

/-- The kinds of values. -/
inductive Kind where
  | null
  | bool
  | int
  | float
  | decimal
  | text
  | uuid
  | datetime
  | date
  | time
  | bytes
  | list
  | tuple
  | mapping
  | operator
deriving DecidableEq, Repr

/-- The name of a kind in messages. -/
def Kind.name : Kind → Text
  | null => "NoneType"
  | bool => "bool"
  | int => "int"
  | float => "float"
  | decimal => "decimal.Decimal"
  | text => "str"
  | uuid => "UUID"
  | datetime => "datetime.datetime"
  | date => "datetime.date"
  | time => "datetime.time"
  | bytes => "bytes"
  | list => "list"
  | tuple => "tuple"
  | mapping => "dict"
  | operator => "FilterOperator"

/-- A value of any kind. An operator counts as the text of its sign wherever texts are asked for. -/
inductive Value where
  | null
  | bool (b : Bool)
  | int (n : Int)
  | float (x : Binary64)
  | decimal (x : Decimal)
  | text (t : Text)
  | uuid (u : Uuid)
  | datetime (t : DateTime)
  | date (d : Date)
  | time (t : TimeOfDay)
  | bytes (bs : List UInt8)
  | list (items : List Value)
  | tuple (items : List Value)
  | mapping (entries : List (Value × Value))
  | operator (op : Operator)

instance : Inhabited Value := ⟨.null⟩

namespace Value

/-- The kind of a value. -/
def kind : Value → Kind
  | null => .null
  | bool _ => .bool
  | int _ => .int
  | float _ => .float
  | decimal _ => .decimal
  | text _ => .text
  | uuid _ => .uuid
  | datetime _ => .datetime
  | date _ => .date
  | time _ => .time
  | bytes _ => .bytes
  | list _ => .list
  | tuple _ => .tuple
  | mapping _ => .mapping
  | operator _ => .operator

/-- The text that a value is, if it is one. -/
def asText? : Value → Option Text
  | text t => some t
  | operator op => some op.text
  | _ => none

/-- The value is null. -/
def isNull : Value → Bool
  | null => true
  | _ => false

/-- The value counts as a met condition: it is not null, false, zero or empty. -/
def holds : Value → Bool
  | null => false
  | bool b => b
  | int n => n ≠ 0
  | float (.finite _ significand _) => significand ≠ 0
  | decimal (.finite _ coefficient _) => coefficient ≠ 0
  | text t => t ≠ []
  | bytes bs => bs ≠ []
  | list items => !items.isEmpty
  | tuple items => !items.isEmpty
  | mapping entries => !entries.isEmpty
  | _ => true

/-- The items that a value yields when it is gone through: those of a list or a tuple, the
characters of a text, the keys of a mapping, the numbers of bytes. Other values yield nothing. -/
def items? : Value → Option (List Value)
  | list items => some items
  | tuple items => some items
  | text t => some (t.map fun c => text [c])
  | operator op => some (op.text.map fun c => text [c])
  | mapping entries => some (entries.map Prod.fst)
  | bytes bs => some (bs.map fun b => int b.toNat)
  | _ => none

/-- The entries whose key is a text. -/
def textEntries (entries : List (Value × Value)) : Table Text Value :=
  entries.filterMap fun (key, value) => key.asText?.map fun t => (t, value)

end Value

end RecordQuery
