import Mathlib.Data.List.Forall2
import RecordQuery.Proofs.Filter.Trace

/-!
What a script writes does not depend on its values.

* `Script.Related R` holds of two scripts that are the same but for the values they compare with,
  where values in the same place are related by `R`.
* `Fragment.Related.write` is the step: related fragments write the same text and count the same
  fields, if `R` relates the name of a moment only to itself. `Fragment.text_writeAll_of_related`
  and `Placeholders.entered_of_related` are the two inductions on it.
* `Script.Related.parallel`: the calls of the two scripts get the same answers, and at every moment
  the queries and the keys are the same (`Script.ParallelAt`). Values are put aside in the same
  places, so the two values of a key that is used once come from the same place.
-/

namespace RecordQuery

/-! ### The same calls with other values -/

variable (R : Value → Value → Prop)

/-- Values whose items are related one by one, or which have none for the same reason. -/
inductive Value.ItemsRelated (v w : Value) : Prop where
  | items {vs ws : List Value} (hv : v.items? = some vs) (hw : w.items? = some ws)
      (h : List.Forall₂ R vs ws)
  | noItems (hv : v.items? = none) (hw : w.items? = none) (h : v.kind = w.kind)

/-- Calls that are the same but for the values they compare with. -/
inductive Call.Related : Call → Call → Prop where
  | compare (op : Operator) (field : Value) {v w : Value} (h : R v w) :
      Related (.compare op field v) (.compare op field w)
  | search (fields : Value) {v w : Value} (h : R v w) :
      Related (.search fields v) (.search fields w)
  | isIn (field : Value) {v w : Value} (h : v.ItemsRelated R w) :
      Related (.isIn field v) (.isIn field w)
  | isNotIn (field : Value) {v w : Value} (h : v.ItemsRelated R w) :
      Related (.isNotIn field v) (.isNotIn field w)
  | between (field : Value) {low low' high high' : Value} (hlow : R low low')
      (hhigh : R high high') : Related (.between field low high) (.between field low' high')
  | notBetween (field : Value) {low low' high high' : Value} (hlow : R low low')
      (hhigh : R high high') : Related (.notBetween field low high) (.notBetween field low' high')
  | isEmpty (field : Value) : Related (.isEmpty field) (.isEmpty field)
  | isNotEmpty (field : Value) : Related (.isNotEmpty field) (.isNotEmpty field)
  | verbatim (raw : Value) : Related (.verbatim raw) (.verbatim raw)
  | combine (c : Combinator) : Related (.combine c) (.combine c)
  | unknown (name : Text) : Related (.unknown name) (.unknown name)

/-- Scripts that are the same but for the values they compare with. -/
inductive Script.Related : Script → Script → Prop where
  | done : Related .done .done
  | call (on : Handle) {c d : Call} {s t : Script} (h : c.Related R d) (hrest : Related s t) :
      Related (.call on c s) (.call on d t)
  | group (on : Handle) {b b' s t : Script} (hbody : Related b b') (hrest : Related s t) :
      Related (.group on b s) (.group on b' t)

/-! ### The same fragments with other values -/

/-- Fragments that are the same but for the value of a comparison. -/
inductive Fragment.Related : Fragment → Fragment → Prop where
  | verbatim (t : Text) : Related (.verbatim t) (.verbatim t)
  | emptiness (field : Value) (negated : Bool) :
      Related (.emptiness field negated) (.emptiness field negated)
  | comparison (field : Value) (op : Operator) {v w : Value} (h : R v w) :
      Related (.comparison ⟨field, op, v⟩) (.comparison ⟨field, op, w⟩)
  | refusal (fault : Fault) : Related (.refusal fault) (.refusal fault)

variable {R}

/-- Lists of related fragments. -/
abbrev Fragment.AllRelated (R : Value → Value → Prop) : List Fragment → List Fragment → Prop :=
  List.Forall₂ (Fragment.Related R)

open Fragment (AllRelated)

lemma Comparison.allRelated_groupFragments (combinator : Combinator) {cs ds : List Comparison}
    (h : List.Forall₂ (fun c d => Fragment.Related R (.comparison c) (.comparison d)) cs ds) :
    AllRelated R (groupFragments combinator cs) (groupFragments combinator ds) := by
  have hinner : AllRelated R (fragments combinator cs) (fragments combinator ds) := by
    cases h with
    | nil => exact .nil
    | cons hfirst hrest =>
        refine .cons hfirst ?_
        induction hrest with
        | nil => exact .nil
        | cons hnext _ ih => exact .cons (.verbatim _) (.cons hnext ih)
  exact .cons (.verbatim _) (List.rel_append hinner (.cons (.verbatim _) .nil))

namespace Call

lemma allRelated_itemFragments (combinator : Combinator) (field : Value) (op : Operator)
    {v w : Value} (h : v.ItemsRelated R w) :
    AllRelated R (itemFragments combinator v fun value => ⟨field, op, value⟩)
      (itemFragments combinator w fun value => ⟨field, op, value⟩) := by
  cases h with
  | items hv hw h =>
      rw [itemFragments, itemFragments, hv, hw]
      refine Comparison.allRelated_groupFragments combinator ?_
      rw [List.forall₂_map_left_iff, List.forall₂_map_right_iff]
      exact h.imp fun _ _ => .comparison field op
  | noItems hv hw h =>
      rw [itemFragments, itemFragments, hv, hw, h]
      exact .cons (.refusal _) .nil

namespace Related

variable {c d : Call}

lemma name_eq (h : c.Related R d) : c.name = d.name := by cases h <;> rfl

lemma role?_eq (h : c.Related R d) : c.role? = d.role? := by cases h <;> rfl

lemma nextRole_eq (h : c.Related R d) : c.nextRole = d.nextRole := by cases h <;> rfl

/-- Related calls write related fragments. -/
lemma fragments (h : c.Related R d) : AllRelated R c.fragments d.fragments := by
  cases h with
  | compare op field h => exact .cons (.comparison field op h) .nil
  | search fields h =>
      rw [Call.fragments, Call.fragments, itemFragments, itemFragments]
      cases fields.items? with
      | none => exact .cons (.refusal _) .nil
      | some items =>
          refine Comparison.allRelated_groupFragments .or ?_
          rw [List.forall₂_map_left_iff, List.forall₂_map_right_iff, List.forall₂_same]
          exact fun field _ => .comparison field _ h
  | isIn field h => exact allRelated_itemFragments .or field _ h
  | isNotIn field h => exact allRelated_itemFragments .and field _ h
  | between field hlow hhigh =>
      exact Comparison.allRelated_groupFragments .and
        (.cons (.comparison field _ hlow) (.cons (.comparison field _ hhigh) .nil))
  | notBetween field hlow hhigh =>
      exact Comparison.allRelated_groupFragments .or
        (.cons (.comparison field _ hlow) (.cons (.comparison field _ hhigh) .nil))
  | isEmpty field => exact .cons (.emptiness field false) .nil
  | isNotEmpty field => exact .cons (.emptiness field true) .nil
  | verbatim raw =>
      rw [Call.fragments]
      cases raw.asText? with
      | none => exact .cons (.refusal _) .nil
      | some t => exact .cons (.verbatim t) .nil
  | combine c => exact .cons (.verbatim c.text) .nil
  | unknown name => exact .cons (.refusal _) .nil

lemma fragmentsAs (h : c.Related R d) (role : Role) :
    AllRelated R (c.fragmentsAs role) (d.fragmentsAs role) := by
  rw [Call.fragmentsAs, Call.fragmentsAs, h.role?_eq, h.name_eq]
  split
  · exact h.fragments
  · exact .cons (.refusal _) .nil

end Related

end Call

namespace Script

lemma Related.fragments {s t : Script} (h : s.Related R t) (objects : List Role) :
    AllRelated R (s.fragments objects) (t.fragments objects) := by
  induction h generalizing objects with
  | done => exact .nil
  | call on h _ ih =>
      rw [Script.fragments, Script.fragments, h.nextRole_eq]
      exact List.rel_append (h.fragmentsAs _) (ih _)
  | group on _ _ ihBody ihRest =>
      rw [Script.fragments, Script.fragments]
      cases on.role objects with
      | restricted => exact .cons (.refusal _) .nil
      | full =>
          exact List.rel_append (.cons (.verbatim _) (ihBody _)) (.cons (.verbatim _) (ihRest _))

end Script

/-! ### The same moments with other values -/

/-- Pairs with the same first parts and related second parts. -/
abbrev PairsRelated {κ : Type} (R : Value → Value → Prop) :
    List (κ × Value) → List (κ × Value) → Prop :=
  List.Forall₂ fun a b => a.1 = b.1 ∧ R a.2 b.2

lemma keys_of_related {t u : Table Text Value} (h : PairsRelated R t u) : t.keys = u.keys := by
  induction h with
  | nil => rfl
  | cons hfirst _ ih => exact congrArg₂ List.cons hfirst.1 ih

namespace Placeholders

variable {p q : Placeholders}

lemma nextOrdinal_congr (h : p.counters = q.counters) (k : Key) :
    p.nextOrdinal k = q.nextOrdinal k := by
  rw [nextOrdinal, nextOrdinal, h]

/-- What a value gets as its key, and what is counted, does not depend on the values. -/
lemma add_congr (h : p.counters = q.counters) (field v w : Value) :
    (p.add field v).1 = (q.add field w).1
      ∧ (p.add field v).2.counters = (q.add field w).2.counters := by
  cases hkey : field.key with
  | error fault =>
      rw [add_of_key_error hkey, add_of_key_error hkey]
      exact ⟨rfl, h⟩
  | ok k =>
      have hcount : (p.count k).counters = (q.count k).counters := by
        simp only [count, nextOrdinal_congr h k, h]
      cases hlong : field.overlong with
      | true =>
          rw [add_of_overlong hkey hlong, add_of_overlong hkey hlong]
          exact ⟨rfl, hcount⟩
      | false =>
          rw [add_of_fits hkey hlong, add_of_fits hkey hlong, nextKey, nextKey,
            nextOrdinal_congr h k]
          exact ⟨rfl, hcount⟩

/-- Related values that are put aside for the same fields get the same keys, where the same fields
have been counted before. -/
theorem entered_of_related (hcounters : p.counters = q.counters) {as bs : List (Value × Value)}
    (h : PairsRelated R as bs) :
    PairsRelated R (p.entered as) (q.entered bs)
      ∧ (p.addAll as).counters = (q.addAll bs).counters := by
  induction h generalizing p q with
  | nil => exact ⟨.nil, hcounters⟩
  | @cons a b as bs hfirst _ ih =>
      obtain ⟨field, v⟩ := a
      obtain ⟨field', w⟩ := b
      obtain ⟨rfl, hvalue⟩ : field = field' ∧ R v w := hfirst
      obtain ⟨hanswer, hnext⟩ := add_congr hcounters field v w
      rw [addAll_cons, addAll_cons, entered, entered]
      refine ⟨?_, (ih hnext).2⟩
      generalize p.add field v = x, q.add field w = y at hanswer hnext
      obtain ⟨answer, p'⟩ := x
      obtain ⟨answer', q'⟩ := y
      obtain rfl : answer = answer' := hanswer
      cases answer with
      | error fault => exact (ih hnext).1
      | ok key => exact .cons ⟨rfl, hvalue⟩ (ih hnext).1

end Placeholders

section

variable (hR : ∀ v w, R v w → v.moment? = w.moment?)

include hR

namespace Fragment

variable {f g : Fragment} {fs gs : List Fragment} {p q : Placeholders}

lemma Related.fault?_eq (h : f.Related R g) : f.fault? = g.fault? := by
  cases h with
  | comparison field op h => simp only [fault?, hR _ _ h]
  | _ => rfl

lemma Related.head_eq (h : f.Related R g) : f.head = g.head := by
  cases h with
  | comparison field op h => simp only [head, hR _ _ h]
  | _ => rfl

lemma Related.reservation? (h : f.Related R g) :
    Option.Rel (fun a b => a.1 = b.1 ∧ R a.2 b.2) f.reservation? g.reservation? := by
  cases h with
  | comparison field op h =>
      simp only [Fragment.reservation?, Comparison.reservation?, hR _ _ h]
      split
      · exact .none
      · exact .some ⟨rfl, h⟩
  | _ => exact .none

/-- Related fragments write the same text, where the same fields have been counted before. -/
lemma Related.text_write (h : f.Related R g) (hcounters : p.counters = q.counters) :
    (f.write p).text = (g.write q).text := by
  have hfaults := h.fault?_eq hR
  cases hfault : f.fault? with
  | some fault =>
      rw [write_of_fault hfault, write_of_fault (hfaults ▸ hfault)]
      rfl
  | none =>
      have hok : g.fault? = none := hfaults ▸ hfault
      have hvalues := h.reservation? hR
      generalize hv : f.reservation? = a, hw : g.reservation? = b at hvalues
      cases hvalues with
      | none =>
          rw [write_of_reservation_eq_none hfault hv, write_of_reservation_eq_none hok hw,
            h.head_eq hR]
          rfl
      | @some a b hpair =>
          obtain ⟨field, v⟩ := a
          obtain ⟨field', w⟩ := b
          obtain ⟨rfl, -⟩ : field = field' ∧ R v w := hpair
          obtain ⟨k, hk, -, hwrite⟩ := write_of_reservation hfault hv p
          obtain ⟨k', hk', -, hwrite'⟩ := write_of_reservation hok hw q
          obtain rfl : k = k' := Except.ok.inj (hk.symm.trans hk')
          rw [hwrite, hwrite', h.head_eq hR, Placeholders.nextKey, Placeholders.nextKey,
            Placeholders.nextOrdinal_congr hcounters k]
          rfl

/-- Related fragments count the same fields. -/
lemma Related.counters_write (h : f.Related R g) (hcounters : p.counters = q.counters) :
    (f.write p).placeholders.counters = (g.write q).placeholders.counters := by
  have hpairs : PairsRelated R f.reservation?.toList g.reservation?.toList := by
    have hvalues := h.reservation? hR
    generalize f.reservation? = a, g.reservation? = b at hvalues
    cases hvalues with
    | none => exact .nil
    | some hpair => exact .cons hpair .nil
  rw [placeholders_write, placeholders_write]
  exact (Placeholders.entered_of_related hcounters hpairs).2

/-- Related fragments that are written one after the other write the same text. -/
theorem text_writeOn_of_related (h : AllRelated R fs gs) (hcounters : p.counters = q.counters) :
    (writeOn fs p).text = (writeOn gs q).text := by
  induction h generalizing p q with
  | nil => rfl
  | cons hfirst _ ih =>
      have hnext := hfirst.counters_write hR hcounters
      exact congrArg₂ (· ++ ·) (hfirst.text_write hR hcounters) (ih hnext)

lemma firstFault?_of_related (h : AllRelated R fs gs) : firstFault? fs = firstFault? gs := by
  induction h with
  | nil => rfl
  | cons hfirst _ ih =>
      rw [firstFault?, firstFault?] at ih ⊢
      rw [List.findSome?_cons, List.findSome?_cons, hfirst.fault?_eq hR, ih]

lemma tried_of_related (h : AllRelated R fs gs) : AllRelated R (tried fs) (tried gs) := by
  induction h with
  | nil => exact .nil
  | cons hfirst _ ih =>
      rw [tried, tried, hfirst.fault?_eq hR]
      split
      · exact .cons hfirst .nil
      · exact .cons hfirst ih

lemma reservations_of_related (h : AllRelated R fs gs) :
    PairsRelated R (fs.filterMap reservation?) (gs.filterMap reservation?) := by
  induction h with
  | nil => exact .nil
  | @cons f g fs gs hfirst _ ih =>
      have hvalues := hfirst.reservation? hR
      rw [List.filterMap_cons, List.filterMap_cons]
      generalize f.reservation? = a, g.reservation? = b at hvalues
      cases hvalues with
      | none => exact ih
      | some hpair => exact .cons hpair ih

end Fragment

/-- Calls that write related fragments and return objects of the same role. -/
abbrev StepsRelated (R : Value → Value → Prop) : List Step → List Step → Prop :=
  List.Forall₂ fun a b => AllRelated R a.fragments b.fragments ∧ a.role = b.role

lemma Step.written_of_related {as bs : List Step} (h : StepsRelated R as bs) :
    AllRelated R (Step.written as) (Step.written bs) := by
  induction h with
  | nil => exact .nil
  | cons hfirst _ ih => exact List.rel_append (Fragment.tried_of_related hR hfirst.1) ih

namespace Script.Related

variable {s t : Script}

lemma steps (h : s.Related R t) (objects : List Role) :
    StepsRelated R (s.steps objects) (t.steps objects) := by
  induction h generalizing objects with
  | done => exact .nil
  | call on h _ ih =>
      have hfragments := h.fragmentsAs (on.role objects)
      rw [Script.steps, Script.steps]
      simp only [Step.objectsAfter, Fragment.firstFault?_of_related hR hfragments, h.nextRole_eq]
      exact .cons ⟨hfragments, rfl⟩ (ih _)
  | @group on b b' s t hbody _ _ ih =>
      have hgroup : (Script.group on b .done).Related R (Script.group on b' .done) :=
        .group on hbody .done
      have hfragments := hgroup.fragments objects
      rw [Script.steps, Script.steps]
      simp only [Step.objectsAfter, Fragment.firstFault?_of_related hR hfragments]
      exact .cons ⟨hfragments, rfl⟩ (ih _)

lemma trace (h : s.Related R t) : AllRelated R s.trace t.trace :=
  Step.written_of_related hR (h.steps hR [.full])

lemma progress_eq (h : s.Related R t) (calls : Nat) : s.progress calls = t.progress calls :=
  (Step.written_of_related hR (List.forall₂_take calls (h.steps hR [.full]))).length_eq

lemma trace_take (h : s.Related R t) (n : Nat) :
    AllRelated R (s.trace.take n) (t.trace.take n) := List.forall₂_take n (h.trace hR)

end Script.Related

end

namespace Script

/-- The keys under which values have been put aside at a moment, one for each time, with the
values. -/
def writesBefore (script : Script) (n : Nat) : List (Text × Value) :=
  ({} : Placeholders).entered (script.reservedBefore n)

/-- At a moment, two scripts have written the same query and put related values aside under the same
keys, one for the other. -/
structure ParallelAt (R : Value → Value → Prop) (s t : Script) (n : Nat) : Prop where
  query : (s.moment n).query = (t.moment n).query
  counters : (s.moment n).placeholders.counters = (t.moment n).placeholders.counters
  keys : (s.moment n).placeholders.values.keys = (t.moment n).placeholders.values.keys
  writes : PairsRelated R (s.writesBefore n) (t.writesBefore n)
  once : ∀ (i : Nat) (key : Text) (v w : Value), (s.writesBefore n)[i]? = some (key, v) →
    (t.writesBefore n)[i]? = some (key, w) → (Table.keys (s.writesBefore n)).count key = 1 →
    (s.moment n).placeholders.values.get? key = some v
      ∧ (t.moment n).placeholders.values.get? key = some w

lemma values_moment (script : Script) (n : Nat) :
    (script.moment n).placeholders.values = .ofList (script.writesBefore n) := by
  rw [placeholders_moment, Placeholders.values_addAll_eq_putAll]
  rfl

/-- A key that was written once holds what was written. -/
lemma get?_moment_of_count {script : Script} {n i : Nat} {key : Text} {value : Value}
    (h : (script.writesBefore n)[i]? = some (key, value))
    (honce : (Table.keys (script.writesBefore n)).count key = 1) :
    (script.moment n).placeholders.values.get? key = some value := by
  obtain ⟨before, behind, hsplit⟩ := List.append_of_mem (List.mem_of_getElem? h)
  rw [hsplit, Table.keys_append, Table.keys_cons, List.count_append, List.count_cons_self] at honce
  have hbehind : key ∉ Table.keys behind := List.count_eq_zero.1 (by omega)
  rw [values_moment, hsplit]
  exact Table.get?_putAll_append_cons [] before value hbehind

/-- **A query does not depend on the values**: the calls of two scripts that are the same but for the
values get the same answers, and so write the same query and the same keys at every moment, whatever
the relation between values in the same place is, as long as it relates the name of a moment only to
a name of that moment. A key that was written once holds the two values in that place. -/
theorem Related.parallel (hR : ∀ v w, R v w → v.moment? = w.moment?) {s t : Script}
    (h : s.Related R t) :
    List.Forall₂ (fun r r' => r.answer = r'.answer
        ∧ ∃ n, r.session = s.moment n ∧ r'.session = t.moment n) (s.reports {}) (t.reports {})
      ∧ ∀ n, s.ParallelAt R t n := by
  refine ⟨?_, fun n => ?_⟩
  · obtain ⟨hlength, hsteps⟩ := List.forall₂_iff_get.1 (h.steps hR [.full])
    rw [reports_eq_mapIdx, reports_eq_mapIdx, List.forall₂_iff_get]
    refine ⟨by simpa using hlength, fun i hi hi' => ?_⟩
    rw [List.length_mapIdx] at hi hi'
    obtain ⟨hfragments, hrole⟩ := hsteps i hi hi'
    simp only [List.get_eq_getElem, List.getElem_mapIdx] at hfragments hrole ⊢
    refine ⟨?_, s.progress (i + 1), rfl, by rw [h.progress_eq hR]⟩
    rw [Step.answer, Step.answer, Fragment.firstFault?_of_related hR hfragments, hrole]
  · have htrace := h.trace_take hR n
    obtain ⟨hwrites, hcounters⟩ :
        PairsRelated R (s.writesBefore n) (t.writesBefore n) ∧ _ :=
      Placeholders.entered_of_related rfl (Fragment.reservations_of_related hR htrace)
    have hkeys := keys_of_related hwrites
    refine ⟨?_, ?_, ?_, hwrites, fun i key v w hv hw honce => ⟨get?_moment_of_count hv honce, ?_⟩⟩
    · exact Fragment.text_writeOn_of_related hR htrace rfl
    · rw [placeholders_moment, placeholders_moment]
      exact hcounters
    · rw [values_moment, values_moment, Table.keys_ofList, Table.keys_ofList, hkeys]
    · exact get?_moment_of_count hw (hkeys ▸ honce)

/-- A comparison, a group with a list and a moment, a search that fails at its second field, and a
call on an object that does not have it. -/
def templateScript (v w x : Value) : Script :=
  .call .latest (.compare ⟨false, .equal⟩ (.text ['a']) v) <|
  .call .latest (.combine .and) <|
  .group .latest
    (.call .latest (.isIn (.text ['b']) (.list [w, .text "@now", .int 2])) .done) <|
  .call .builder (.search (.list [.text ['c'], .list []]) x) <|
  .call .latest (.compare ⟨false, .like⟩ (.text ['d']) x) .done

/-- The same calls with values that are harmless. -/
def plainScript : Script := templateScript (.int 1) (.text ['x']) .null

/-- The same calls with values that look like parts of a query. -/
def hostileScript : Script :=
  templateScript (.text "' || ''='") (.list [.int 1]) (.text "{:a1}")

lemma related_plainScript :
    plainScript.Related (fun v w => v.moment? = w.moment?) hostileScript := by
  have hitems : Value.ItemsRelated (fun v w => v.moment? = w.moment?)
      (.list [.text ['x'], .text "@now", .int 2])
      (.list [.list [.int 1], .text "@now", .int 2]) :=
    .items rfl rfl (.cons rfl (.cons rfl (.cons rfl .nil)))
  exact .call _ (.compare _ _ rfl) <| .call _ (.combine _) <|
    .group _ (.call _ (.isIn _ hitems) .done) <| .call _ (.search _ rfl) <|
    .call _ (.compare _ _ rfl) .done

/-- Values that look like parts of a query are put aside where harmless ones are, and the query is
the same. -/
theorem parallel_plainScript :
    (plainScript.reports {}).map Report.answer
        = [.ok .restricted, .ok .full, .ok .restricted, .error (.noKey "list"),
            .error (.missingCall .restricted "like")]
      ∧ List.Forall₂ (fun r r' => r.answer = r'.answer) (plainScript.reports {})
          (hostileScript.reports {})
      ∧ (hostileScript.moment 14).query
          = "a={:a1} && ((b={:b1} || b=@now || b={:b2}))(c~{:c1} || "
      ∧ (hostileScript.moment 14).placeholders.values.get? ['c', '1'] = some (.text "{:a1}") := by
  obtain ⟨hreports, hmoments⟩ := related_plainScript.parallel fun _ _ h => h
  have hquery : (plainScript.moment 14).query
      = "a={:a1} && ((b={:b1} || b=@now || b={:b2}))(c~{:c1} || " := rfl
  refine ⟨rfl, hreports.imp fun _ _ h => h.1, hquery ▸ (hmoments 14).query.symm, ?_⟩
  exact ((hmoments 14).once 3 _ .null _ rfl rfl rfl).2

end Script

end RecordQuery
