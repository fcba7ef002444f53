import RecordQuery.Proofs.Filter.Trace

/-!
Values are numbered in the order in which a script is read.

* `Call.comparisons` are the comparisons that a call spells out, and `Script.reservations` the values
  of a script that need a key, with their fields, read from left to right through groups and lists.
* `Script.filterMap_fragments`: a script that meets no fault puts just these values aside.
* `Script.placeholders_eq_of_reservations_eq`: so two scripts all of whose calls succeed, and which
  read the same, leave the same placeholders, whatever else they write.
-/

namespace RecordQuery

/-- The comparisons that a call spells out. -/
def Call.comparisons : Call → List Comparison
  | compare op field value => [⟨field, op, value⟩]
  | search fields value =>
    (fields.items?.getD []).map fun field => ⟨field, ⟨false, .like⟩, value⟩
  | isIn field values => (values.items?.getD []).map fun value => ⟨field, ⟨false, .equal⟩, value⟩
  | isNotIn field values =>
    (values.items?.getD []).map fun value => ⟨field, ⟨false, .notEqual⟩, value⟩
  | between field low high =>
    [⟨field, ⟨false, .greaterThanOrEqual⟩, low⟩, ⟨field, ⟨false, .lessThanOrEqual⟩, high⟩]
  | notBetween field low high =>
    [⟨field, ⟨false, .lessThan⟩, low⟩, ⟨field, ⟨false, .greaterThan⟩, high⟩]
  | _ => []

/-- The values that a call puts aside if it succeeds, with their fields. -/
def Call.reservations (c : Call) : List (Value × Value) :=
  c.comparisons.filterMap Comparison.reservation?

/-- The values of a script that need a key, with their fields, from left to right. -/
def Script.reservations (script : Script) : List (Value × Value) :=
  script.calls.flatMap Call.reservations

namespace Fragment

@[simp]
lemma reservation?_verbatim (t : Text) : (verbatim t).reservation? = none := rfl

@[simp]
lemma reservation?_comparison (c : Comparison) :
    (comparison c).reservation? = c.reservation? := rfl

end Fragment

/-- Parentheses and combinators put nothing aside. -/
lemma Comparison.filterMap_groupFragments (combinator : Combinator) (cs : List Comparison) :
    (groupFragments combinator cs).filterMap Fragment.reservation?
      = cs.filterMap Comparison.reservation? := by
  have hrest (cs : List Comparison) :
      (cs.flatMap fun c => [Fragment.verbatim combinator.text, .comparison c]).filterMap
          Fragment.reservation?
        = cs.filterMap Comparison.reservation? := by
    induction cs with
    | nil => rfl
    | cons c cs ih =>
        simp only [List.flatMap_cons, List.cons_append, List.nil_append, List.filterMap_cons,
          Fragment.reservation?_verbatim, Fragment.reservation?_comparison, ih]
  cases cs with
  | nil => rfl
  | cons c cs =>
      simp only [groupFragments, fragments, List.cons_append, List.filterMap_cons,
        Fragment.reservation?_verbatim, Fragment.reservation?_comparison, List.filterMap_append,
        hrest]
      cases c.reservation? <;> simp

namespace Call

lemma filterMap_itemFragments (combinator : Combinator) (items : Value)
    (comparison : Value → Comparison) :
    (itemFragments combinator items comparison).filterMap Fragment.reservation?
      = ((items.items?.getD []).map comparison).filterMap Comparison.reservation? := by
  rw [itemFragments]
  cases items.items? with
  | none => rfl
  | some items => exact Comparison.filterMap_groupFragments combinator _

/-- The fragments of a call put the values of its comparisons aside. -/
lemma filterMap_fragments (c : Call) : c.fragments.filterMap Fragment.reservation? = c.reservations := by
  cases c with
  | compare op field value => rfl
  | search fields value => exact filterMap_itemFragments _ _ _
  | isIn field values => exact filterMap_itemFragments _ _ _
  | isNotIn field values => exact filterMap_itemFragments _ _ _
  | between field low high => exact Comparison.filterMap_groupFragments _ _
  | notBetween field low high => exact Comparison.filterMap_groupFragments _ _
  | isEmpty field => rfl
  | isNotEmpty field => rfl
  | verbatim raw =>
      rw [fragments]
      cases raw.asText? <;> rfl
  | combine combinator => rfl
  | unknown name => rfl

end Call

namespace Script

open Fragment (reservation?)

/-- What a script writes puts the values aside that are read off it, unless a fault cuts it short. -/
theorem filterMap_fragments {script : Script} {objects : List Role}
    (h : ∀ f ∈ script.fragments objects, f.fault? = none) :
    (script.fragments objects).filterMap reservation? = script.reservations := by
  induction script generalizing objects with
  | done => rfl
  | call on c rest ih =>
      obtain ⟨hcall, hrest⟩ := List.forall_mem_append.1 h
      have hrole : c.role? = some (on.role objects) := by
        by_contra hne
        rw [Call.fragmentsAs, if_neg hne] at hcall
        exact absurd (hcall _ List.mem_cons_self) (by simp [Fragment.fault?])
      rw [fragments, List.filterMap_append, ih hrest, Call.fragmentsAs, if_pos hrole,
        Call.filterMap_fragments]
      rfl
  | group on body rest ihBody ihRest =>
      rw [fragments] at h ⊢
      cases hrole : on.role objects with
      | restricted =>
          rw [hrole] at h
          exact absurd (h _ List.mem_cons_self) (by simp [Fragment.fault?])
      | full =>
          rw [hrole] at h
          simp only [List.cons_append, List.forall_mem_cons, List.forall_mem_append] at h
          obtain ⟨-, hbody, -, hrest⟩ := h
          simp only [List.cons_append, List.filterMap_cons, List.filterMap_append,
            Fragment.reservation?_verbatim, ihBody hbody, ihRest hrest]
          exact List.flatMap_append.symm

/-- The placeholders that a script leaves, all of whose calls succeed, are those of its values in
the order in which it is read. -/
theorem placeholders_finish {script : Script} {p : Placeholders}
    (h : script.Succeeds [.full] { placeholders := p }) :
    (script.finish { placeholders := p }).placeholders = p.addAll script.reservations := by
  have hrun : (script.run [.full] p).fault = none := succeeds_iff.1 h
  have hfinish : script.finish { placeholders := p }
      = ({ placeholders := p } : Session).after (script.run [.full] p) := finishFrom_eq_after hrun
  rw [run_eq_writeAll, Fragment.fault_writeAll, Fragment.firstFault?,
    List.findSome?_eq_none_iff] at hrun
  rw [hfinish, run_eq_writeAll, ← filterMap_fragments hrun]
  exact Fragment.placeholders_writeAll hrun p

/-- **Numbering follows the order of reading**: if two scripts begin with the same placeholders, all
their calls succeed, and the values that need a key are read off them with the same fields in the
same order, then they leave the same placeholders: counters, keys and values. These are the
placeholders after the values have been put aside one by one. -/
theorem placeholders_eq_of_reservations_eq {s t : Script} {p : Placeholders}
    (hs : s.Succeeds [.full] { placeholders := p }) (ht : t.Succeeds [.full] { placeholders := p })
    (h : s.reservations = t.reservations) :
    (s.finish { placeholders := p }).placeholders = (t.finish { placeholders := p }).placeholders
      ∧ (s.finish { placeholders := p }).placeholders = p.addAll s.reservations := by
  refine ⟨?_, placeholders_finish hs⟩
  rw [placeholders_finish hs, placeholders_finish ht, h]

/-- A comparison, and behind it a group with a list of values. -/
def listScript : Script :=
  .call .latest (.compare ⟨false, .equal⟩ (.text ['a']) (.int 1)) <|
  .call .latest (.combine .and) <|
  .group .latest
    (.call .latest (.isIn (.text ['b']) (.list [.int 2, .text ['x']])) .done) .done

/-- A group in a group, a moment, a search, a test for being empty and a comparison, all of them
but the combinator on the builder itself. -/
def nestedScript : Script :=
  .group .latest
    (.group .latest (.call .latest (.compare ⟨true, .notEqual⟩ (.text ['a']) (.int 1)) .done)
      .done) <|
  .call .latest (.combine .or) <|
  .call .builder (.compare ⟨false, .greaterThan⟩ (.text ['c']) (.text "@now")) <|
  .call .builder (.search (.tuple [.text ['b']]) (.int 2)) <|
  .call .builder (.isEmpty (.text ['a'])) <|
  .call .builder (.compare ⟨false, .like⟩ (.text ['b']) (.text ['x'])) .done

/-- Both scripts put `1` aside for `a`, and then `2` and `x` for `b`. -/
theorem placeholders_listScript :
    (listScript.finish {}).placeholders = (nestedScript.finish {}).placeholders
      ∧ (nestedScript.finish {}).query
          = "((a?!={:a1})) || c>@now(b~{:b1})a=''b~{:b2}"
      ∧ (listScript.finish {}).placeholders.values
          = [(['a', '1'], .int 1), (['b', '1'], .int 2), (['b', '2'], .text ['x'])] := by
  have hlist : listScript.Succeeds [.full] { placeholders := {} } := by
    unfold Succeeds
    decide
  have hnested : nestedScript.Succeeds [.full] { placeholders := {} } := by
    unfold Succeeds
    decide
  obtain ⟨hsame, horder⟩ := placeholders_eq_of_reservations_eq hlist hnested rfl
  exact ⟨hsame, rfl, congrArg Placeholders.values horder⟩

end Script

end RecordQuery
