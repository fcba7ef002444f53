/-!
Tables that remember the order in which their keys arrived.

* `Table.put` gives a key a value. A new key goes to the end, and a key that is present keeps its
  place (`Table.keys_put`).
* `Table.get?` finds the value of a key: the one put last (`Table.get?_put`).
-/

namespace RecordQuery

/-- Keys with their values, in the order in which the keys first arrived. -/
abbrev Table (κ ν : Type) := List (κ × ν)

namespace Table

variable {κ ν : Type} [BEq κ]

/-- The keys in their order. -/
def keys (t : Table κ ν) : List κ := t.map Prod.fst

/-- The value of a key. -/
def get? (t : Table κ ν) (key : κ) : Option ν := t.lookup key

/-- Gives a key a value. -/
def put (key : κ) (value : ν) : Table κ ν → Table κ ν
  | [] => [(key, value)]
  | (k, v) :: rest => if k == key then (k, value) :: rest else (k, v) :: put key value rest

/-- The table that the pairs make when they are put in one after the other. -/
def ofList (pairs : List (κ × ν)) : Table κ ν :=
  pairs.foldl (fun t (key, value) => put key value t) []

/-- Only a key that is not there yet lengthens the list of keys. -/
theorem keys_put [LawfulBEq κ] (key : κ) (value : ν) (t : Table κ ν) :
    (put key value t).keys = if t.keys.contains key then t.keys else t.keys ++ [key] := by
  induction t with
  | nil => rfl
  | cons entry rest ih =>
    obtain ⟨k, v⟩ := entry
    by_cases h : k = key
    · simp [put, keys, h]
    · have hne : (key == k) = false := beq_eq_false_iff_ne.2 (Ne.symm h)
      have hput : put key value ((k, v) :: rest) = (k, v) :: put key value rest := by
        simp [put, h]
      have hkeys : keys ((k, v) :: rest) = k :: keys rest := rfl
      rw [hput, hkeys, List.contains_cons, hne, Bool.false_or]
      change k :: (put key value rest).keys = _
      rw [ih]
      exact apply_ite (k :: ·) _ _ _

/-- The value of a key is that of the first entry with it. -/
theorem get?_cons (k key : κ) (value : ν) (t : Table κ ν) :
    get? ((key, value) :: t) k = if k == key then some value else t.get? k := by
  cases h : k == key <;> simp [get?, List.lookup_cons, h]

/-- A key has the value it was given last, whatever happens to the others. -/
theorem get?_put [LawfulBEq κ] (key k : κ) (value : ν) (t : Table κ ν) :
    (put key value t).get? k = if k == key then some value else t.get? k := by
  induction t with
  | nil => exact get?_cons k key value []
  | cons entry rest ih =>
    obtain ⟨k', v⟩ := entry
    by_cases h : k' = key
    · subst h
      rw [put, if_pos (beq_self_eq_true k'), get?_cons, get?_cons]
      split <;> rfl
    · rw [put, if_neg (by simpa using h), get?_cons, get?_cons, ih]
      by_cases hk : k = k'
      · subst hk
        simp [h]
      · simp [hk]

end Table

end RecordQuery
