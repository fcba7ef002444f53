import RecordQuery.Fault
import RecordQuery.Number.Magnitude

/-!
Values as keys of tables.

* `Key` is what a value stands for as a key. Numbers of all kinds stand for what they denote: true is
  one, and one is `1.0` and the decimal `1.00`. An operator stands for its text, and a date with an
  offset for its instant. So two values are the same key exactly when their `Key`s are equal.
* `Value.key` gives the key of a value, and fails where there is none: on a list, a mapping and a
  signaling NaN, and on a tuple that holds one of them.
* `Entries` are the entries of a mapping that is being filled. A key that is there already keeps its
  place and the value by which it was first given.
-/

namespace RecordQuery

/-- What a value stands for as a key. -/
inductive Key where
  | null
  | number (m : Magnitude)
  | text (t : Text)
  | uuid (u : Uuid)
  /-- A date with an offset: seconds from the start of the calendar in universal time. -/
  | instant (second : Int) (microsecond : Nat)
  /-- A date without an offset, as it reads. -/
  | reading (t : DateTime)
  | date (d : Date)
  | time (t : TimeOfDay)
  | bytes (bs : List UInt8)
  /-- A tuple without items. -/
  | noItems
  /-- A tuple with a first item, and the tuple of the others. -/
  | item (first rest : Key)
deriving DecidableEq

namespace Value

/-- The magnitude of a value that is a number; truth values are zero and one. -/
def magnitude? : Value → Option Magnitude
  | bool b => some (.ofInt b.toNat)
  | int n => some (.ofInt n)
  | float x => some (.ofBinary64 x)
  | decimal x => some (.ofDecimal x)
  | _ => none

/-- The key of a number. -/
def keyOfNumber (m : Magnitude) : Except Fault Key :=
  if m.isSignaling then .error .signalingKey else .ok (.number m)

/-- The key of a date with a time. -/
def keyOfDateTime (t : DateTime) : Key :=
  if t.offset.isSome then .instant t.seconds t.time.microsecond else .reading t

mutual

/-- The key of a value. -/
def key : Value → Except Fault Key
  | null => .ok .null
  | bool b => keyOfNumber (.ofInt b.toNat)
  | int n => keyOfNumber (.ofInt n)
  | float x => keyOfNumber (.ofBinary64 x)
  | decimal x => keyOfNumber (.ofDecimal x)
  | text t => .ok (.text t)
  | operator op => .ok (.text op.text)
  | uuid u => .ok (.uuid u)
  | datetime t => .ok (keyOfDateTime t)
  | date d => .ok (.date d)
  | time t => .ok (.time t)
  | bytes bs => .ok (.bytes bs)
  | list _ => .error (.noKey Kind.list.name)
  | mapping _ => .error (.noKey Kind.mapping.name)
  | tuple items => keyOfItems items
termination_by structural v => v

/-- The key of a tuple with the given items. The first item without a key tells why there is none. -/
def keyOfItems : List Value → Except Fault Key
  | [] => .ok .noItems
  | item :: items => do
    let first ← key item
    let rest ← keyOfItems items
    return .item first rest
termination_by structural items => items

end

/-- Every integer has a key. -/
theorem key_int (n : Int) : (int n).key = .ok (.number (.ofInt n)) := by
  have hquiet : (Magnitude.ofInt n).isSignaling = false := by
    rw [Magnitude.ofInt, Magnitude.scaled]
    split <;> rfl
  rw [key, keyOfNumber, hquiet]
  rfl

/-- The values have the same key. -/
def sharesKey (a b : Value) : Bool :=
  match a.key, b.key with
  | .ok k, .ok l => k == l
  | _, _ => false

/-- The values of a mapping by the keys of its entries. -/
def keyed (entries : List (Value × Value)) : Table Key Value :=
  entries.filterMap fun (k, v) => k.key.toOption.map fun key => (key, v)

end Value

/-- What is kept under values as keys: each key stands for a value, and next to what is kept is the
value by which the key was first given. -/
abbrev Keyed (ν : Type) := Table Key (Value × ν)

namespace Keyed

variable {ν : Type}

/-- Gives a key a value. -/
def put (key : Value) (value : ν) (t : Keyed ν) : Except Fault (Keyed ν) :=
  key.key.map fun k => Table.put k (((Table.get? t k).map Prod.fst).getD key, value) t

/-- What is kept under texts as keys. -/
def ofTexts (t : Table Text ν) : Keyed ν :=
  t.map fun (key, value) => (.text key, .text key, value)

end Keyed

/-- The entries of a mapping, by their keys. -/
abbrev Entries := Keyed Value

namespace Entries

/-- The entries in their order. -/
def list (t : Entries) : List (Value × Value) := t.map Prod.snd

theorem textEntries_ofTexts (t : Table Text Value) :
    Value.textEntries (list (.ofTexts t)) = t := by
  simp only [Value.textEntries, list, Keyed.ofTexts, List.map_map, List.filterMap_map]
  exact List.filterMap_some

end Entries

end RecordQuery
