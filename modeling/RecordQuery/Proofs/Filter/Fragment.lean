import Mathlib.Tactic.Common
import RecordQuery.Filter.Script

/-!
What a script writes, laid out as a list.

* `Fragment` is a part of a filter before any value has a key: a text, a test of a field for being
  empty, or a comparison. A fault is a fragment as well, and nothing behind it is written.
* `Script.fragments` lists the fragments of a script. They depend neither on the placeholders nor
  on what is written already.
* `Script.run_eq_writeAll`: to run a script is to write its fragments one after the other.
* `Script.succeeds_iff`: every call of a script succeeds exactly if a run meets no fault, and then
  the session at the end holds what the run wrote (`Script.finishFrom_eq_after`).
-/

namespace RecordQuery

namespace Outcome

@[simp]
lemma wrote_andThen (t : Text) (p : Placeholders) (next : Placeholders → Outcome) :
    (wrote t p).andThen next = { next p with text := t ++ (next p).text } := rfl

@[simp]
lemma wrote_nil_andThen (p : Placeholders) (next : Placeholders → Outcome) :
    (wrote [] p).andThen next = next p := rfl

@[simp]
lemma andThen_wrote_nil (o : Outcome) : o.andThen (wrote []) = o := by
  obtain ⟨t, p, _ | fault⟩ := o
  · simp [andThen, wrote]
  · rfl

/-- A field that is a text is written, with what stands behind it in two parts. -/
lemma wroteBehind_text (name t u : Text) (p : Placeholders) :
    wroteBehind (.text name) (t ++ u) p = wrote (name ++ t ++ u) p :=
  congrArg (wrote · p) (List.append_assoc name t u).symm

/-- An outcome without a fault is its text with the placeholders. -/
lemma eq_wrote {o : Outcome} (h : o.fault = none) : o = wrote o.text o.placeholders := by
  obtain ⟨t, p, fault⟩ := o
  obtain rfl : fault = none := h
  rfl

/-- Nothing goes on behind a fault. -/
lemma fault_andThen_eq_none_iff {o : Outcome} {next : Placeholders → Outcome} :
    (o.andThen next).fault = none ↔ o.fault = none ∧ (next o.placeholders).fault = none := by
  obtain ⟨t, p, _ | fault⟩ := o
  · exact ⟨fun h => ⟨rfl, h⟩, fun h => h.2⟩
  · simp [andThen]

end Outcome

/-! ### Fragments -/

/-- A part of what a script writes, before any value has a key. -/
inductive Fragment where
  | verbatim (t : Text)
  /-- The field is empty or, if `negated` is set, it is not. -/
  | emptiness (field : Value) (negated : Bool)
  | comparison (c : Comparison)
  /-- The end of the script by a fault. -/
  | refusal (fault : Fault)

namespace Fragment

/-- What stands behind a field that is tested for being empty. -/
def emptinessMark : (negated : Bool) → Text
  | false => ['=', '\'', '\'']
  | true => ['!', '=', '\'', '\'']

/-- The text of a test for being empty. -/
def emptinessText (field : Value) (negated : Bool) : Text := field.display ++ emptinessMark negated

/-- Writes a fragment. -/
def write : Fragment → Placeholders → Outcome
  | verbatim t, p => .wrote t p
  | emptiness field negated, p => .wroteBehind field (emptinessMark negated) p
  | comparison c, p => c.write p
  | refusal fault, p => .failed p fault

/-- Writes fragments one after the other. -/
def writeAll : List Fragment → Placeholders → Outcome
  | [], p => .wrote [] p
  | f :: fs, p => (f.write p).andThen (writeAll fs)

@[simp]
lemma writeAll_nil (p : Placeholders) : writeAll [] p = .wrote [] p := rfl

lemma writeAll_cons (f : Fragment) (fs : List Fragment) (p : Placeholders) :
    writeAll (f :: fs) p = (f.write p).andThen (writeAll fs) := rfl

lemma writeAll_singleton (f : Fragment) (p : Placeholders) : writeAll [f] p = f.write p :=
  Outcome.andThen_wrote_nil _

theorem writeAll_append (fs gs : List Fragment) (p : Placeholders) :
    writeAll (fs ++ gs) p = (writeAll fs p).andThen (writeAll gs) := by
  induction fs generalizing p with
  | nil => rfl
  | cons f fs ih =>
      rw [List.cons_append, writeAll_cons, writeAll_cons, Outcome.andThen_assoc]
      exact congrArg _ (funext ih)

end Fragment

/-! ### The fragments of a script -/

namespace Comparison

/-- Comparisons with the combinator between neighbours. -/
def fragments (combinator : Combinator) : List Comparison → List Fragment
  | [] => []
  | c :: cs => .comparison c :: cs.flatMap fun c => [.verbatim combinator.text, .comparison c]

/-- Comparisons in parentheses, with the combinator between neighbours. -/
def groupFragments (combinator : Combinator) (cs : List Comparison) : List Fragment :=
  .verbatim ['('] :: fragments combinator cs ++ [.verbatim [')']]

lemma writeRest_eq_writeAll (combinator : Combinator) (cs : List Comparison) (p : Placeholders) :
    writeRest combinator cs p
      = Fragment.writeAll
          (cs.flatMap fun c => [.verbatim combinator.text, .comparison c]) p := by
  induction cs generalizing p with
  | nil => rfl
  | cons c cs ih =>
      rw [writeRest, List.flatMap_cons, Fragment.writeAll_append, Fragment.writeAll_cons,
        show Fragment.writeAll [.comparison c] = c.write from
          funext (Fragment.writeAll_singleton _)]
      exact congrArg _ (funext ih)

lemma writeAll_eq_writeAll (combinator : Combinator) (cs : List Comparison) (p : Placeholders) :
    writeAll combinator cs p = Fragment.writeAll (groupFragments combinator cs) p := by
  have heach : writeEach combinator cs = Fragment.writeAll (fragments combinator cs) := by
    funext p
    cases cs with
    | nil => rfl
    | cons c cs =>
        rw [writeEach, fragments, Fragment.writeAll_cons]
        exact congrArg _ (funext (writeRest_eq_writeAll combinator cs))
  rw [writeAll, heach, groupFragments, Fragment.writeAll_append, Fragment.writeAll_cons]
  exact congrArg _ (funext fun p => (Fragment.writeAll_singleton (.verbatim [')']) p).symm)

end Comparison

namespace Call

/-- The fragments of comparisons with the items of a value. -/
def itemFragments (combinator : Combinator) (items : Value) (comparison : Value → Comparison) :
    List Fragment :=
  match items.items? with
  | none => [.refusal (.noItems items.kind)]
  | some items => Comparison.groupFragments combinator (items.map comparison)

/-- The fragments of a call on an object whose role has it. -/
def fragments : Call → List Fragment
  | compare op field value => [.comparison ⟨field, op, value⟩]
  | search fields value => itemFragments .or fields fun field => ⟨field, ⟨false, .like⟩, value⟩
  | isIn field values => itemFragments .or values fun value => ⟨field, ⟨false, .equal⟩, value⟩
  | isNotIn field values =>
    itemFragments .and values fun value => ⟨field, ⟨false, .notEqual⟩, value⟩
  | between field low high =>
    Comparison.groupFragments .and [⟨field, ⟨false, .greaterThanOrEqual⟩, low⟩,
      ⟨field, ⟨false, .lessThanOrEqual⟩, high⟩]
  | notBetween field low high =>
    Comparison.groupFragments .or [⟨field, ⟨false, .lessThan⟩, low⟩,
      ⟨field, ⟨false, .greaterThan⟩, high⟩]
  | isEmpty field => [.emptiness field false]
  | isNotEmpty field => [.emptiness field true]
  | verbatim raw =>
    match raw.asText? with
    | some t => [.verbatim t]
    | none => [.refusal (.notText raw.kind)]
  | combine c => [.verbatim c.text]
  | unknown name => [.refusal (Call.refusal .full name)]

/-- The fragments of a call on an object of the given role, which may not have it. -/
def fragmentsAs (role : Role) (c : Call) : List Fragment :=
  if c.role? = some role then c.fragments else [.refusal (Call.refusal role c.name)]

lemma compareItems_eq_writeAll (combinator : Combinator) (items : Value)
    (comparison : Value → Comparison) (p : Placeholders) :
    compareItems p combinator items comparison
      = Fragment.writeAll (itemFragments combinator items comparison) p := by
  rw [compareItems, itemFragments]
  cases items.items? with
  | none => rfl
  | some items => exact Comparison.writeAll_eq_writeAll _ _ _

lemma perform_eq_writeAll (c : Call) (p : Placeholders) :
    c.perform p = Fragment.writeAll c.fragments p := by
  cases c with
  | compare op field value =>
      exact (Fragment.writeAll_singleton (.comparison ⟨field, op, value⟩) p).symm
  | search fields value => exact compareItems_eq_writeAll _ _ _ _
  | isIn field values => exact compareItems_eq_writeAll _ _ _ _
  | isNotIn field values => exact compareItems_eq_writeAll _ _ _ _
  | between field low high => exact Comparison.writeAll_eq_writeAll _ _ _
  | notBetween field low high => exact Comparison.writeAll_eq_writeAll _ _ _
  | isEmpty field => exact (Fragment.writeAll_singleton (.emptiness field false) p).symm
  | isNotEmpty field => exact (Fragment.writeAll_singleton (.emptiness field true) p).symm
  | verbatim raw =>
      rw [perform, fragments]
      cases raw.asText? with
      | none => rfl
      | some t => exact (Fragment.writeAll_singleton (.verbatim t) p).symm
  | combine c => exact (Fragment.writeAll_singleton (.verbatim c.text) p).symm
  | unknown name => rfl

lemma performAs_eq_writeAll (role : Role) (c : Call) (p : Placeholders) :
    c.performAs role p = Fragment.writeAll (c.fragmentsAs role) p := by
  rw [performAs, fragmentsAs]
  split
  · exact perform_eq_writeAll c p
  · rfl

end Call

namespace Script

/-- The calls of a script, in the bodies of groups as well, from left to right. -/
def calls : Script → List Call
  | done => []
  | call _ c rest => c :: rest.calls
  | group _ body rest => body.calls ++ rest.calls

/-- The fragments of a script, with the roles of the objects at hand. -/
def fragments : Script → List Role → List Fragment
  | done, _ => []
  | call on c rest, objects =>
    c.fragmentsAs (on.role objects) ++ rest.fragments (c.nextRole :: objects)
  | group on body rest, objects =>
    match on.role objects with
    | .restricted => [.refusal (.missingCall .restricted "group")]
    | .full =>
      .verbatim ['('] :: body.fragments [.full] ++ .verbatim [')']
        :: rest.fragments (.restricted :: objects)

/-- To run a script is to write its fragments one after the other. -/
theorem run_eq_writeAll (script : Script) (objects : List Role) (p : Placeholders) :
    script.run objects p = Fragment.writeAll (script.fragments objects) p := by
  induction script generalizing objects p with
  | done => rfl
  | call on c rest ih =>
      rw [run, fragments, Fragment.writeAll_append, Call.performAs_eq_writeAll]
      exact congrArg _ (funext (ih _))
  | group on body rest ihBody ihRest =>
      rw [run, fragments]
      cases on.role objects with
      | restricted => rfl
      | full =>
          simp only []
          rw [Outcome.andThen_assoc, Fragment.writeAll_append, Fragment.writeAll_cons,
            funext (ihBody [.full])]
          refine congrArg _ (funext fun p => ?_)
          rw [Fragment.writeAll_cons, funext (ihRest (.restricted :: objects))]
          rfl

/-! ### Sessions in which every call succeeds -/

/-- The session after the calls of a script, made by a caller who goes on after a fault. -/
def finishFrom (script : Script) (objects : List Role) (s : Session) : Session :=
  ((script.reportsFrom objects s).getLast?.map Report.session).getD s

/-- Every call of the script succeeds. -/
def Succeeds (script : Script) (objects : List Role) (s : Session) : Prop :=
  ∀ report ∈ script.reportsFrom objects s, report.answer.isOk

lemma settle_of_fault_eq_none {s : Session} {o : Outcome} (h : o.fault = none) (role : Role)
    (objects : List Role) : settle s o role objects = (⟨.ok role, s.after o⟩, role :: objects) := by
  rw [settle, h]

lemma settle_of_fault_eq_some {s : Session} {o : Outcome} {fault : Fault} (h : o.fault = some fault)
    (role : Role) (objects : List Role) :
    settle s o role objects = (⟨.error fault, s.after o⟩, objects) := by
  rw [settle, h]

lemma getLast?_cons_getD (r : Report) (rs : List Report) (s : Session) :
    ((r :: rs).getLast?.map Report.session).getD s
      = (rs.getLast?.map Report.session).getD r.session := by
  rw [List.getLast?_cons]
  cases rs.getLast? <;> rfl

/-- A first step of a script, and the steps behind it, taken together. -/
lemma after_andThen {s : Session} {o : Outcome} {next : Placeholders → Outcome}
    (h : o.fault = none) : s.after (o.andThen next) = (s.after o).after (next o.placeholders) := by
  rw [Outcome.eq_wrote h, Outcome.wrote_andThen]
  simp [Session.after, Outcome.wrote]

/-- The calls of a script succeed exactly if a run meets no fault, and then they leave what the run
leaves. -/
def Agrees (script : Script) (objects : List Role) (s : Session) : Prop :=
  (script.Succeeds objects s ↔ (script.run objects s.placeholders).fault = none)
    ∧ ((script.run objects s.placeholders).fault = none →
      script.finishFrom objects s = s.after (script.run objects s.placeholders))

/-- A first step in front of a script leaves the two ways of making its calls in agreement. -/
lemma Agrees.step {script rest : Script} {objects : List Role} {s : Session} {o : Outcome}
    {role : Role}
    (hreports : script.reportsFrom objects s = (settle s o role objects).1 ::
      rest.reportsFrom (settle s o role objects).2 (settle s o role objects).1.session)
    (hrun : script.run objects s.placeholders = o.andThen (rest.run (role :: objects)))
    (hrest : rest.Agrees (role :: objects) (s.after o)) : script.Agrees objects s := by
  rw [Agrees, Succeeds, finishFrom, hreports, hrun, List.forall_mem_cons, getLast?_cons_getD,
    Outcome.fault_andThen_eq_none_iff]
  cases hfault : o.fault with
  | none =>
      rw [settle_of_fault_eq_none hfault, after_andThen hfault]
      exact ⟨and_congr (by simp [Except.isOk, Except.toBool]) hrest.1, fun h => hrest.2 h.2⟩
  | some fault =>
      rw [settle_of_fault_eq_some hfault]
      simp [Except.isOk, Except.toBool]

lemma agrees (script : Script) (objects : List Role) (s : Session) : script.Agrees objects s := by
  induction script generalizing objects s with
  | done =>
      refine ⟨iff_of_true (fun report h => absurd h List.not_mem_nil) rfl, fun _ => ?_⟩
      simp [finishFrom, reportsFrom, run, Session.after, Outcome.wrote]
  | call on c rest ih => exact Agrees.step rfl rfl (ih _ _)
  | group on body rest _ ih =>
      refine Agrees.step rfl ?_ (ih _ _)
      rw [run, run]
      cases on.role objects with
      | restricted => rfl
      | full => exact congrArg (Outcome.andThen · _) (Outcome.andThen_wrote_nil _).symm

variable {script : Script} {objects : List Role} {s : Session}

/-- Every call succeeds exactly if a run meets no fault. -/
theorem succeeds_iff :
    script.Succeeds objects s ↔ (script.run objects s.placeholders).fault = none :=
  (script.agrees objects s).1

/-- Where a run meets no fault, a caller who goes on after faults sees what it leaves. -/
theorem finishFrom_eq_after (h : (script.run objects s.placeholders).fault = none) :
    script.finishFrom objects s = s.after (script.run objects s.placeholders) :=
  (script.agrees objects s).2 h

end Script

end RecordQuery
