import Mathlib.Tactic.Common
import RecordQuery.Value.Display

/-!
Steps that may fail.

* `error_of_bind` and `ok_of_bind` take two steps apart.
* `faultOf?` is the fault of a step, and `faultOf?_bind` that of two steps of which the second one
  fails in one way only.
-/

namespace RecordQuery

variable {α β : Type} {x : Except Fault α} {next : α → Except Fault β} {fault : Fault}

/-- A fault of two steps is a fault of the first or, behind it, of the second. -/
lemma error_of_bind (h : (x >>= next) = .error fault) :
    x = .error fault ∨ ∃ a, x = .ok a ∧ next a = .error fault := by
  cases x with
  | error e => exact Or.inl (congrArg Except.error (Except.error.inj h))
  | ok a => exact Or.inr ⟨a, rfl, h⟩

/-- A result of two steps comes from a result of the first. -/
lemma ok_of_bind {b : β} (h : (x >>= next) = .ok b) : ∃ a, x = .ok a ∧ next a = .ok b := by
  cases x with
  | error e => cases h
  | ok a => exact ⟨a, rfl, h⟩

/-- A result that something was made of is there. -/
lemma exists_of_map_eq_ok {f : α → β} {b : β} (h : x.map f = .ok b) : ∃ a, x = .ok a ∧ f a = b := by
  cases x with
  | error e => cases h
  | ok a => exact ⟨a, rfl, Except.ok.inj h⟩

/-- The fault with which a step ends, if it does. -/
def faultOf? : Except Fault α → Option Fault
  | .ok _ => none
  | .error fault => some fault

lemma faultOf?_eq_some_iff : faultOf? x = some fault ↔ x = .error fault := by
  cases x with
  | error e => exact ⟨fun h => congrArg Except.error (Option.some.inj h),
      fun h => congrArg some (Except.error.inj h)⟩
  | ok a => exact iff_of_false nofun nofun

/-- If the second step fails in one way only, two steps fail in that way unless the first one
does. -/
lemma faultOf?_bind {second : Option Fault} (h : ∀ a, faultOf? (next a) = second) :
    faultOf? (x >>= next) = (faultOf? x).or second := by
  cases x with
  | error e => rfl
  | ok a => exact (h a).trans Option.none_or.symm

/-- What is made of the result of a step plays no part in its fault. -/
lemma faultOf?_bind_return (x : Except Fault α) (f : α → β) :
    faultOf? (x >>= fun a => return f a) = faultOf? x := by
  cases x <;> rfl

lemma faultOf?_eq_none_iff : faultOf? x = none ↔ ∃ a, x = .ok a := by
  cases x with
  | error e => exact iff_of_false nofun nofun
  | ok a => exact iff_of_true rfl ⟨a, rfl⟩

lemma Value.faultOf?_displayed (v : Value) :
    faultOf? v.displayed = if v.overlong then some .tooManyDigits else none := by
  rw [displayed]
  split <;> rfl

end RecordQuery
