import RecordQuery.Value.Key

/-!
Which values are equal.

* Numbers of all kinds are compared by what they denote. A NaN equals no number but is still the same
  value as itself.
* Lists and tuples are compared item by item, mappings by their entries, whatever the order, and all
  other values by their keys.
* `Value.equate` compares from left to right and stops at the first difference. It fails if it
  comes to a signaling NaN and another number before that.
-/

namespace RecordQuery

namespace Value

/-- Numbers are equal if they denote the same. A signaling NaN may be compared with no number but
itself. -/
def equateNumbers (m n : Magnitude) : Except Fault Bool :=
  if m = n then .ok true
  else if m.isSignaling || n.isSignaling then .error .signalingComparison
  else .ok false

/-- Compares values that hold no others. -/
def equateLeaf (a b : Value) : Except Fault Bool :=
  match a.magnitude?, b.magnitude? with
  | some m, some n => equateNumbers m n
  | _, _ => .ok (a.sharesKey b)

mutual

/-- Compares values. Lists and mappings of different lengths differ without a look inside. -/
def equate : Value → Value → Except Fault Bool
  | list xs, list ys => if xs.length = ys.length then equateItems xs ys else .ok false
  | tuple xs, tuple ys => equateItems xs ys
  | mapping es, mapping fs =>
    if es.length = fs.length then equateEntries es (keyed fs) else .ok false
  | a, b => equateLeaf a b
termination_by structural a => a

/-- Compares items in the same places, and their number last. -/
def equateItems : List Value → List Value → Except Fault Bool
  | [], [] => .ok true
  | x :: xs, y :: ys => do
    if ← equate x y then equateItems xs ys else return false
  | _, _ => .ok false
termination_by structural xs => xs

/-- Looks for each entry in the other mapping. -/
def equateEntries : List (Value × Value) → Table Key Value → Except Fault Bool
  | [], _ => .ok true
  | e :: es, t => do
    if ← equateEntry e t then equateEntries es t else return false
termination_by structural es => es

/-- Looks for the key of an entry in the other mapping, and compares the values. -/
def equateEntry : Value × Value → Table Key Value → Except Fault Bool
  | (k, v), t =>
    match k.key.toOption.bind t.get? with
    | some w => equate v w
    | none => .ok false
termination_by structural e => e

end

end Value

end RecordQuery
