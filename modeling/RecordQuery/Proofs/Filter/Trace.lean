import Mathlib.Tactic.Common
import RecordQuery.Proofs.Fault
import RecordQuery.Proofs.Filter.Fragment
import RecordQuery.Proofs.Table

/-!
What is written by a caller who goes on after a fault.

* A fragment fails or not whatever has been put aside (`Fragment.fault?`), so the fragments up to the
  first fault are known from the script alone (`Fragment.tried`), and they are all that leaves
  anything (`Fragment.writeAll_eq_writeOn`). The one that fails writes nothing, but its field may be
  counted by then (`Fragment.outcome_cases`).
* `Fragment.placeholders_writeOn`: fragments put their values aside in their order.
* `Script.steps` lists the calls of a script with their fragments, and `Script.trace` what they try
  to write, one call after the other. `Script.moment` is the session after a number of these
  fragments, between two calls or inside of one.
* `Script.reports_eq_mapIdx`: every report shows such a moment.
-/

namespace RecordQuery

/-! ### Values that are put aside -/

/-- The value that a comparison puts aside, with its field. -/
def Comparison.reservation? (c : Comparison) : Option (Value × Value) :=
  if c.value.moment?.isSome then none else some (c.field, c.value)

lemma Comparison.reservation?_eq_some_iff {c : Comparison} {field value : Value} :
    c.reservation? = some (field, value)
      ↔ c.value.moment? = none ∧ c.field = field ∧ c.value = value := by
  rw [reservation?]
  cases c.value.moment? <;> simp

namespace Placeholders

/-- The keys under which values are put aside one after the other, with the values. A value for whose
field there is no key is not put aside. -/
def entered (p : Placeholders) : List (Value × Value) → List (Text × Value)
  | [] => []
  | (field, value) :: rest =>
    match p.add field value with
    | (.ok key, next) => (key, value) :: next.entered rest
    | (.error _, next) => next.entered rest

lemma addAll_cons (p : Placeholders) (field value : Value) (rest : List (Value × Value)) :
    p.addAll ((field, value) :: rest) = (p.add field value).2.addAll rest := rfl

/-- The placeholders after a value has been put aside under a key. -/
def keep (p : Placeholders) (field : Key) (key : Text) (value : Value) : Placeholders :=
  { p.count field with values := p.values.put key value }

/-- The key of the next value of a field, whose counter is given. -/
def nextKey (p : Placeholders) (field : Value) (counter : Key) : Text :=
  field.display ++ Text.numeral (p.nextOrdinal counter)

section

variable {field : Value} {k : Key}

/-- A field that cannot be counted leaves everything as it is. -/
lemma add_of_key_error {fault : Fault} (h : field.key = .error fault) (p : Placeholders)
    (value : Value) : p.add field value = (.error fault, p) := by
  rw [add, h]

/-- A field whose text has too many digits is counted, and no more. -/
lemma add_of_overlong (h : field.key = .ok k) (hlong : field.overlong = true) (p : Placeholders)
    (value : Value) : p.add field value = (.error .tooManyDigits, p.count k) := by
  simp only [add, h, key, Value.displayed_of_overlong hlong, Except.map]

/-- Any other field gives a value its key. -/
lemma add_of_fits (h : field.key = .ok k) (hfits : field.overlong = false) (p : Placeholders)
    (value : Value) :
    p.add field value = (.ok (p.nextKey field k), p.keep k (p.nextKey field k) value) := by
  simp only [add, h, key, Value.displayed_of_fits hfits, Except.map, nextKey, keep, count]

end

lemma entered_append (p : Placeholders) (pairs more : List (Value × Value)) :
    p.entered (pairs ++ more) = p.entered pairs ++ (p.addAll pairs).entered more := by
  induction pairs generalizing p with
  | nil => rfl
  | cons pair rest ih =>
      obtain ⟨field, value⟩ := pair
      rw [List.cons_append, entered, entered, addAll_cons]
      generalize p.add field value = added
      obtain ⟨_ | key, next⟩ := added
      · exact ih next
      · exact congrArg ((key, value) :: ·) (ih next)

/-- The table is filled with the values in their order, each under its key. -/
theorem values_addAll_eq_putAll (p : Placeholders) (pairs : List (Value × Value)) :
    (p.addAll pairs).values = p.values.putAll (p.entered pairs) := by
  induction pairs generalizing p with
  | nil => rfl
  | cons pair rest ih =>
      obtain ⟨field, value⟩ := pair
      rw [addAll_cons, ih, entered]
      cases hkey : field.key with
      | error fault => rw [add_of_key_error hkey]
      | ok k =>
          cases hlong : field.overlong with
          | true =>
              rw [add_of_overlong hkey hlong]
              rfl
          | false =>
              rw [add_of_fits hkey hlong]
              rfl

end Placeholders

/-! ### The fragments up to a fault -/

namespace Fragment

/-- The fault with which a fragment ends a script, if it does. What has been put aside plays no part
in it. -/
def fault? : Fragment → Option Fault
  | verbatim _ => none
  | emptiness field _ => faultOf? field.displayed
  | comparison c =>
    if c.value.moment?.isSome then faultOf? c.field.displayed
    else (faultOf? c.field.key).or (faultOf? c.field.displayed)
  | refusal fault => some fault

/-- The value that a fragment puts aside, with its field. -/
def reservation? : Fragment → Option (Value × Value)
  | comparison c => c.reservation?
  | _ => none

/-- The text of a fragment, up to the placeholder if it has one. -/
def head : Fragment → Text
  | verbatim t => t
  | emptiness field negated => emptinessText field negated
  | comparison c =>
    c.field.display ++ c.operator.text ++ (c.value.moment?.map Moment.text).getD []
  | refusal _ => []

variable {f : Fragment} {fs : List Fragment}

/-- **What a fragment writes**: one that fails writes nothing, though its field may be counted by
then. One without a value writes its text, and any other one its text and the placeholder of the key
under which the value is put aside. -/
theorem outcome_cases (f : Fragment) (p : Placeholders) :
    (∃ fault, f.fault? = some fault ∧ f.write p = .failed (p.addAll f.reservation?.toList) fault)
      ∨ f.fault? = none ∧ (f.reservation? = none ∧ f.write p = .wrote f.head p
        ∨ ∃ field value k, f.reservation? = some (field, value) ∧ field.key = .ok k
          ∧ field.overlong = false
          ∧ f.write p = .wrote (f.head ++ placeholder (p.nextKey field k)) (p.add field value).2) := by
  cases f with
  | verbatim t => exact Or.inr ⟨rfl, Or.inl ⟨rfl, rfl⟩⟩
  | refusal fault => exact Or.inl ⟨fault, rfl, rfl⟩
  | emptiness field negated =>
      simp only [write, Outcome.wroteBehind, fault?]
      cases hlong : field.overlong with
      | true => exact Or.inl ⟨_, by rw [Value.displayed_of_overlong hlong]; exact ⟨rfl, rfl⟩⟩
      | false => exact Or.inr (by rw [Value.displayed_of_fits hlong]; exact ⟨rfl, Or.inl ⟨rfl, rfl⟩⟩)
  | comparison c =>
      obtain ⟨field, op, value⟩ := c
      simp only [write, Comparison.write, Outcome.wroteBehind, fault?, reservation?,
        Comparison.reservation?, head]
      cases hm : value.moment? with
      | some moment =>
          cases hlong : field.overlong with
          | true => simp [Value.displayed_of_overlong hlong, faultOf?, Placeholders.addAll]
          | false => simp [Value.displayed_of_fits hlong, faultOf?]
      | none =>
          cases hkey : field.key with
          | error fault =>
              simp [Placeholders.add_of_key_error hkey, faultOf?, Placeholders.addAll]
          | ok k =>
              cases hlong : field.overlong with
              | true =>
                  simp [Placeholders.add_of_overlong hkey hlong, Value.displayed_of_overlong hlong,
                    faultOf?, Placeholders.addAll]
              | false =>
                  simp [Placeholders.add_of_fits hkey hlong, Value.displayed_of_fits hlong, faultOf?,
                    hkey, hlong]

lemma write_of_fault {fault : Fault} (h : f.fault? = some fault) (p : Placeholders) :
    f.write p = .failed (p.addAll f.reservation?.toList) fault := by
  obtain ⟨fault', hfault, hwrite⟩ | ⟨hnone, -⟩ := f.outcome_cases p
  · obtain rfl := Option.some.inj (hfault.symm.trans h)
    exact hwrite
  · cases hnone.symm.trans h

/-- A fragment that fails puts nothing aside. -/
lemma entered_of_fault {fault : Fault} (h : f.fault? = some fault) (p : Placeholders) :
    p.entered f.reservation?.toList = [] := by
  cases f with
  | comparison c =>
      obtain ⟨field, op, value⟩ := c
      simp only [fault?, reservation?, Comparison.reservation?] at h ⊢
      cases hm : value.moment? with
      | some moment => rfl
      | none =>
          cases hkey : field.key with
          | error fault => simp [Placeholders.entered, Placeholders.add_of_key_error hkey]
          | ok k =>
              cases hlong : field.overlong with
              | true => simp [Placeholders.entered, Placeholders.add_of_overlong hkey hlong]
              | false => simp [hm, hkey, Value.displayed_of_fits hlong, faultOf?] at h
  | _ => rfl

/-- A fragment without a value is its text. -/
lemma write_of_reservation_eq_none (hok : f.fault? = none) (h : f.reservation? = none)
    (p : Placeholders) : f.write p = .wrote f.head p := by
  obtain ⟨fault, hfault, -⟩ | ⟨-, ⟨-, hwrite⟩ | ⟨field, value, k, hvalue, -⟩⟩ := f.outcome_cases p
  · cases hok.symm.trans hfault
  · exact hwrite
  · cases h.symm.trans hvalue

/-- A fragment with a value ends in the placeholder of the key under which the value is put aside. -/
lemma write_of_reservation {field value : Value} (hok : f.fault? = none)
    (h : f.reservation? = some (field, value)) (p : Placeholders) :
    ∃ k, field.key = .ok k ∧ field.overlong = false
      ∧ f.write p = .wrote (f.head ++ placeholder (p.nextKey field k)) (p.add field value).2 := by
  obtain ⟨fault, hfault, -⟩ | ⟨-, ⟨hnone, -⟩ | ⟨field', value', k, hvalue, hwrite⟩⟩ := f.outcome_cases p
  · cases hok.symm.trans hfault
  · cases hnone.symm.trans h
  · obtain ⟨rfl, rfl⟩ := Prod.mk.inj (Option.some.inj (hvalue.symm.trans h))
    exact ⟨k, hwrite⟩

lemma fault_write (f : Fragment) (p : Placeholders) : (f.write p).fault = f.fault? := by
  obtain ⟨fault, hfault, hwrite⟩ | ⟨hnone, ⟨-, hwrite⟩ | ⟨_, _, _, -, -, -, hwrite⟩⟩ :=
    f.outcome_cases p
  · rw [hwrite, hfault]
    rfl
  · rw [hwrite, hnone]
    rfl
  · rw [hwrite, hnone]
    rfl

/-- Whether it fails or not, a fragment puts its value aside as far as it can. -/
lemma placeholders_write (f : Fragment) (p : Placeholders) :
    (f.write p).placeholders = p.addAll f.reservation?.toList := by
  obtain ⟨fault, -, hwrite⟩ | ⟨-, ⟨hnone, hwrite⟩ | ⟨_, _, _, hvalue, -, -, hwrite⟩⟩ :=
    f.outcome_cases p
  · rw [hwrite]
    rfl
  · rw [hwrite, hnone]
    rfl
  · rw [hwrite, hvalue]
    rfl

/-- Writes fragments one after the other, and goes on behind faults. -/
def writeOn : List Fragment → Placeholders → Outcome
  | [], p => .wrote [] p
  | f :: fs, p =>
    let rest := writeOn fs (f.write p).placeholders
    .wrote ((f.write p).text ++ rest.text) rest.placeholders

/-- The fragments up to the first one that fails. -/
def tried : List Fragment → List Fragment
  | [] => []
  | f :: fs => f :: if f.fault?.isSome then [] else tried fs

/-- The first fault among fragments. -/
def firstFault? (fs : List Fragment) : Option Fault := fs.findSome? fault?

lemma tried_subset (fs : List Fragment) : tried fs ⊆ fs := by
  induction fs with
  | nil => exact List.Subset.refl _
  | cons f fs ih =>
      rw [tried]
      split
      · exact List.cons_subset_cons f (List.nil_subset fs)
      · exact List.cons_subset_cons f ih

/-- Behind fragments without a fault, a failing one is the last that is tried. -/
lemma tried_append_cons (h : ∀ g ∈ fs, g.fault? = none) {fault : Fault} (hf : f.fault? = some fault)
    (gs : List Fragment) : tried (fs ++ f :: gs) = fs ++ [f] := by
  induction fs with
  | nil => rw [List.nil_append, tried, hf]; rfl
  | cons g fs ih =>
      obtain ⟨hfirst, hrest⟩ := List.forall_mem_cons.1 h
      rw [List.cons_append, tried, hfirst, ih hrest]
      rfl

/-- **Faults are foreseeable**: fragments leave what those up to the first fault leave, and end with
that fault. -/
theorem writeAll_eq_writeOn (fs : List Fragment) (p : Placeholders) :
    writeAll fs p = { writeOn (tried fs) p with fault := firstFault? fs } := by
  induction fs generalizing p with
  | nil => rfl
  | cons f fs ih =>
      cases hfault : f.fault? with
      | some fault =>
          have htried : tried (f :: fs) = [f] := by simp [tried, hfault]
          have hfirst : firstFault? (f :: fs) = some fault := by simp [firstFault?, hfault]
          rw [htried, hfirst, writeAll_cons, writeOn, write_of_fault hfault, Outcome.andThen_failed]
          rfl
      | none =>
          have htried : tried (f :: fs) = f :: tried fs := by simp [tried, hfault]
          have hfirst : firstFault? (f :: fs) = firstFault? fs := by simp [firstFault?, hfault]
          have hwrite := Outcome.eq_wrote ((f.fault_write p).trans hfault)
          rw [htried, hfirst, writeAll_cons, hwrite, Outcome.wrote_andThen, ih]
          rfl

lemma fault_writeAll (fs : List Fragment) (p : Placeholders) :
    (writeAll fs p).fault = firstFault? fs := by
  rw [writeAll_eq_writeOn]

lemma filterMap_reservation?_cons (f : Fragment) (fs : List Fragment) :
    (f :: fs).filterMap reservation? = f.reservation?.toList ++ fs.filterMap reservation? := by
  rw [List.filterMap_cons]
  cases f.reservation? <;> rfl

/-- Fragments put their values aside in their order. -/
theorem placeholders_writeOn (fs : List Fragment) (p : Placeholders) :
    (writeOn fs p).placeholders = p.addAll (fs.filterMap reservation?) := by
  induction fs generalizing p with
  | nil => rfl
  | cons f fs ih =>
      have hrest : (writeOn (f :: fs) p).placeholders
          = (writeOn fs (f.write p).placeholders).placeholders := rfl
      rw [hrest, ih, placeholders_write, ← Placeholders.addAll_append, filterMap_reservation?_cons]

/-- Fragments without a fault put all their values aside. -/
theorem placeholders_writeAll (h : ∀ f ∈ fs, f.fault? = none) (p : Placeholders) :
    (writeAll fs p).placeholders = p.addAll (fs.filterMap reservation?) := by
  have htried : tried fs = fs := by
    induction fs with
    | nil => rfl
    | cons f fs ih =>
        obtain ⟨hfirst, hrest⟩ := List.forall_mem_cons.1 h
        rw [tried, hfirst, ih hrest]
        rfl
  rw [writeAll_eq_writeOn, htried]
  exact placeholders_writeOn fs p

end Fragment

/-! ### The calls of a script, one after the other -/

/-- A call as it is made: the fragments that it writes, and the role of the object that it
returns. -/
structure Step where
  fragments : List Fragment
  role : Role

namespace Step

/-- What the call answers. -/
def answer (step : Step) : Except Fault Role :=
  match Fragment.firstFault? step.fragments with
  | none => .ok step.role
  | some fault => .error fault

/-- The roles of the objects at hand after the call: one that fails returns none. -/
def objectsAfter (step : Step) (objects : List Role) : List Role :=
  match Fragment.firstFault? step.fragments with
  | none => step.role :: objects
  | some _ => objects

/-- The reports on calls that are made one after the other. -/
def reports : List Step → Session → List Report
  | [], _ => []
  | step :: steps, s =>
    let session := s.after (Fragment.writeAll step.fragments s.placeholders)
    ⟨step.answer, session⟩ :: reports steps session

/-- The fragments that calls try to write, each call up to its fault. -/
def written (steps : List Step) : List Fragment :=
  steps.flatMap fun step => Fragment.tried step.fragments

end Step

namespace Script

/-- The calls of a script as they are made by a caller who goes on after a fault, with the roles of
the objects at hand. -/
def steps : Script → List Role → List Step
  | done, _ => []
  | call on c rest, objects =>
    let step : Step := ⟨c.fragmentsAs (on.role objects), c.nextRole⟩
    step :: rest.steps (step.objectsAfter objects)
  | group on body rest, objects =>
    let step : Step := ⟨(group on body done).fragments objects, .restricted⟩
    step :: rest.steps (step.objectsAfter objects)

lemma settle_writeAll (step : Step) (objects : List Role) (s : Session) :
    settle s (Fragment.writeAll step.fragments s.placeholders) step.role objects
      = (⟨step.answer, s.after (Fragment.writeAll step.fragments s.placeholders)⟩,
          step.objectsAfter objects) := by
  have hfault := Fragment.fault_writeAll step.fragments s.placeholders
  rw [Step.answer, Step.objectsAfter]
  cases h : Fragment.firstFault? step.fragments with
  | none => exact settle_of_fault_eq_none (hfault.trans h) _ _
  | some fault => exact settle_of_fault_eq_some (hfault.trans h) _ _

/-- The reports on a script are those on its calls. -/
theorem reportsFrom_eq_reports (script : Script) (objects : List Role) (s : Session) :
    script.reportsFrom objects s = Step.reports (script.steps objects) s := by
  induction script generalizing objects s with
  | done => rfl
  | call on c rest ih =>
      rw [reportsFrom, Call.performAs_eq_writeAll, steps, Step.reports]
      have hsettle := settle_writeAll ⟨c.fragmentsAs (on.role objects), c.nextRole⟩ objects s
      simp only at hsettle ⊢
      rw [hsettle, ih]
  | group on body rest _ ih =>
      rw [reportsFrom, run_eq_writeAll, steps, Step.reports]
      have hsettle := settle_writeAll ⟨(group on body done).fragments objects, .restricted⟩ objects s
      simp only at hsettle ⊢
      rw [hsettle, ih]

/-- What the calls of a script try to write, by a caller who goes on after a fault. -/
def trace (script : Script) : List Fragment := Step.written (script.steps [.full])

/-- The session at a moment of a script: after a number of the fragments that its calls try to
write. -/
def moment (script : Script) (n : Nat) : Session :=
  ({} : Session).after (Fragment.writeOn (script.trace.take n) {})

/-- How many fragments the first calls of a script try to write. -/
def progress (script : Script) (calls : Nat) : Nat :=
  (Step.written ((script.steps [.full]).take calls)).length

end Script

namespace Session

/-- What stands behind a fault leaves nothing. -/
lemma after_writeAll (s : Session) (fs : List Fragment) (p : Placeholders) :
    s.after (Fragment.writeAll fs p) = s.after (Fragment.writeOn (Fragment.tried fs) p) := by
  rw [Fragment.writeAll_eq_writeOn]
  rfl

/-- Fragments that are written in two parts are written as a whole. -/
lemma after_writeOn_append (s : Session) (fs gs : List Fragment) :
    s.after (Fragment.writeOn (fs ++ gs) s.placeholders)
      = (s.after (Fragment.writeOn fs s.placeholders)).after
          (Fragment.writeOn gs (s.after (Fragment.writeOn fs s.placeholders)).placeholders) := by
  induction fs generalizing s with
  | nil => simp [Fragment.writeOn, after, Outcome.wrote]
  | cons f fs ih =>
      have hstep (hs : List Fragment) : s.after (Fragment.writeOn (f :: hs) s.placeholders)
          = (s.after (f.write s.placeholders)).after
              (Fragment.writeOn hs (s.after (f.write s.placeholders)).placeholders) := by
        simp [Fragment.writeOn, after, Outcome.wrote]
      rw [List.cons_append, hstep, hstep, ih]

end Session

/-- After each call, the session holds what all calls so far have written. -/
theorem Step.getElem?_reports (steps : List Step) (s : Session) (n : Nat) :
    (reports steps s)[n]? = steps[n]?.map fun step =>
      ⟨step.answer, s.after (Fragment.writeOn (written (steps.take (n + 1))) s.placeholders)⟩ := by
  induction steps generalizing s n with
  | nil => rfl
  | cons step steps ih =>
      have hfirst := s.after_writeAll step.fragments s.placeholders
      cases n with
      | zero => simp [reports, written, hfirst]
      | succ n =>
          have hwritten : written ((step :: steps).take (n + 1 + 1))
              = Fragment.tried step.fragments ++ written (steps.take (n + 1)) := rfl
          rw [reports, hfirst, List.getElem?_cons_succ, ih, List.getElem?_cons_succ, hwritten,
            s.after_writeOn_append]

namespace Script

/-- **Reports show moments**: the reports on a script are the answers of its calls, each with the
moment at which the calls so far have written what they write. -/
theorem reports_eq_mapIdx (script : Script) :
    script.reports {} = (script.steps [.full]).mapIdx fun i step =>
      ⟨step.answer, script.moment (script.progress (i + 1))⟩ := by
  refine List.ext_getElem? fun i => ?_
  have htake : script.trace.take (script.progress (i + 1))
      = Step.written ((script.steps [.full]).take (i + 1)) := by
    have hsplit : script.trace = Step.written ((script.steps [.full]).take (i + 1))
        ++ Step.written ((script.steps [.full]).drop (i + 1)) := by
      rw [Step.written, Step.written, ← List.flatMap_append, List.take_append_drop]
      rfl
    rw [hsplit, progress, List.take_left]
  rw [reports, reportsFrom_eq_reports, Step.getElem?_reports, List.getElem?_mapIdx, moment, htake]

/-- The values that have been put aside at a moment, as far as they could, with their fields. -/
def reservedBefore (script : Script) (n : Nat) : List (Value × Value) :=
  (script.trace.take n).filterMap Fragment.reservation?

/-- At every moment, the placeholders are those of the values that have been put aside, one after
the other. -/
theorem placeholders_moment (script : Script) (n : Nat) :
    (script.moment n).placeholders = ({} : Placeholders).addAll (script.reservedBefore n) :=
  Fragment.placeholders_writeOn (script.trace.take n) {}

end Script

end RecordQuery
