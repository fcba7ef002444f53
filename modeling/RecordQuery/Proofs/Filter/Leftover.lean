import RecordQuery.Proofs.Filter.ReadingOrder
import RecordQuery.Proofs.Filter.SpelledOut
import RecordQuery.Proofs.Text.Numeral

/-!
What a call that fails leaves behind.

* A call writes one fragment, or a list of comparisons in parentheses (`Call.fragments_cases`). Only
  the second kind can fail with something written already.
* `Comparison.tried_groupFragments`: a list that fails has written its parenthesis and the
  comparisons in front of the first one that fails (`Comparison.opening`).
* A comparison fails if its field cannot be counted, or if the text of its field has too many digits.
  In the second case the field may be counted by then (`Comparison.countedInVain?`).
* `Call.after_of_fault`: so a failed call leaves a session as it was but for that count, unless it is
  a list, and a list over one field leaves its values as they were.
-/

namespace RecordQuery

/-! ### Comparisons that fail -/

namespace Placeholders

/-- The placeholders with one more value counted for a field, if one is given. -/
def countGiven (p : Placeholders) : Option Key → Placeholders
  | none => p
  | some field => p.count field

@[simp]
lemma values_countGiven (p : Placeholders) (field? : Option Key) :
    (p.countGiven field?).values = p.values := by
  cases field? <;> rfl

end Placeholders

namespace Comparison

/-- The value needs no key, or the field can be counted. -/
def Countable (c : Comparison) : Prop := c.value.moment?.isSome ∨ ∃ k, c.field.key = .ok k

/-- The field that has been counted in vain when a comparison fails: its value was to be put aside,
but its text has too many digits. -/
def countedInVain? (c : Comparison) : Option Key :=
  if c.value.moment?.isSome || !c.field.overlong then none else c.field.key.toOption

variable {c : Comparison} {fault : Fault}

/-- A comparison fails if its value has to be put aside and its field cannot be counted, or else if
the text of its field has too many digits. -/
lemma fault?_eq_some_iff :
    (Fragment.comparison c).fault? = some fault
      ↔ (c.value.moment? = none ∧ c.field.key = .error fault)
        ∨ c.Countable ∧ c.field.overlong = true ∧ fault = .tooManyDigits := by
  rw [Fragment.fault?, Value.faultOf?_displayed, Countable]
  cases c.value.moment? <;> cases c.field.key <;> cases c.field.overlong <;>
    simp [faultOf?, eq_comm]

/-- A comparison succeeds if its value is a moment or its field can be counted, and the text of its
field has few enough digits. -/
lemma fault?_eq_none_iff :
    (Fragment.comparison c).fault? = none ↔ c.Countable ∧ c.field.overlong = false := by
  rw [Fragment.fault?, Value.faultOf?_displayed, Countable]
  cases c.value.moment? <;> cases c.field.key <;> cases c.field.overlong <;> simp [faultOf?]

/-- A comparison that fails leaves no more than a count. -/
lemma addAll_reservation? (h : (Fragment.comparison c).fault? = some fault) (p : Placeholders) :
    p.addAll c.reservation?.toList = p.countGiven c.countedInVain? := by
  obtain ⟨field, op, value⟩ := c
  rw [reservation?, countedInVain?]
  rcases fault?_eq_some_iff.1 h with ⟨hmoment, hkey⟩ | ⟨hcountable, hlong, -⟩
  · have hadd := Placeholders.add_of_key_error hkey p value
    simp_all [Placeholders.addAll, Placeholders.countGiven, Except.toOption]
  · cases hmoment : value.moment? with
    | some moment => rfl
    | none =>
        obtain ⟨k, hkey⟩ : ∃ k, field.key = .ok k := by simpa [Countable, hmoment] using hcountable
        have hadd := Placeholders.add_of_overlong hkey hlong p value
        simp_all [Placeholders.addAll, Placeholders.countGiven, Except.toOption]

end Comparison

/-! ### Lists of comparisons -/

namespace Comparison

/-- What is written of a list of comparisons that goes on behind them: the parenthesis, and each
comparison with the combinator behind it. -/
def opening (combinator : Combinator) (cs : List Comparison) : List Fragment :=
  .verbatim ['('] :: cs.flatMap fun c => [.comparison c, .verbatim combinator.text]

variable {combinator : Combinator} {cs before behind : List Comparison} {failing : Comparison}
  {fault : Fault}

lemma fragments_append_cons (combinator : Combinator) (before : List Comparison) (c : Comparison)
    (behind : List Comparison) :
    fragments combinator (before ++ c :: behind)
      = (before.flatMap fun d => [.comparison d, .verbatim combinator.text])
        ++ fragments combinator (c :: behind) := by
  induction before with
  | nil => rfl
  | cons d before ih =>
      rw [List.flatMap_cons, List.append_assoc, ← ih]
      cases before <;> rfl

/-- The fault of a list is that of its first comparison with one. -/
lemma firstFault?_groupFragments (combinator : Combinator) (cs : List Comparison) :
    Fragment.firstFault? (groupFragments combinator cs)
      = cs.findSome? fun c => (Fragment.comparison c).fault? := by
  have hverbatim (t : Text) : (Fragment.verbatim t).fault? = none := rfl
  have hrest (cs : List Comparison) :
      (cs.flatMap fun c => [Fragment.verbatim combinator.text, .comparison c]).findSome?
          Fragment.fault?
        = cs.findSome? fun c => (Fragment.comparison c).fault? := by
    induction cs with
    | nil => rfl
    | cons c cs ih =>
        simp only [List.flatMap_cons, List.findSome?_append, List.findSome?_cons, hverbatim, ih]
        cases (Fragment.comparison c).fault? <;> rfl
  rw [Fragment.firstFault?, groupFragments]
  cases cs with
  | nil => rfl
  | cons c cs =>
      simp only [fragments, List.cons_append, List.findSome?_append, List.findSome?_cons, hverbatim,
        hrest]
      cases (Fragment.comparison c).fault? <;> simp

/-- The beginning of a list has no fault if none of its comparisons has one. -/
lemma fault?_of_mem_opening (h : ∀ c ∈ cs, (Fragment.comparison c).fault? = none) {f : Fragment}
    (hf : f ∈ opening combinator cs) : f.fault? = none := by
  rcases List.mem_cons.1 hf with rfl | hf
  · rfl
  · obtain ⟨c, hc, hf⟩ := List.mem_flatMap.1 hf
    rcases List.mem_pair.1 hf with rfl | rfl
    · exact h c hc
    · rfl

/-- The beginning of a list puts the values of its comparisons aside. -/
lemma filterMap_opening (combinator : Combinator) (cs : List Comparison) :
    (opening combinator cs).filterMap Fragment.reservation?
      = cs.filterMap Comparison.reservation? := by
  rw [opening, List.filterMap_cons_none rfl]
  induction cs with
  | nil => rfl
  | cons c cs ih =>
      rw [List.flatMap_cons, List.filterMap_append, ih]
      cases h : c.reservation? <;> simp [h]

/-- A list is tried up to its first comparison that fails. -/
lemma tried_groupFragments (hbefore : ∀ c ∈ before, (Fragment.comparison c).fault? = none)
    (hfailing : (Fragment.comparison failing).fault? = some fault) :
    Fragment.tried (groupFragments combinator (before ++ failing :: behind))
      = opening combinator before ++ [.comparison failing] := by
  have hsplit : groupFragments combinator (before ++ failing :: behind)
      = opening combinator before ++ .comparison failing
        :: ((behind.flatMap fun c => [.verbatim combinator.text, .comparison c])
          ++ [.verbatim [')']]) := by
    rw [groupFragments, fragments_append_cons, opening, fragments]
    simp
  rw [hsplit]
  exact Fragment.tried_append_cons (fun f hf => fault?_of_mem_opening hbefore hf) hfailing _

end Comparison

namespace Call

/-- The combinator of a call that writes a list of comparisons in parentheses. Other calls have none,
nor has one that is given nothing to go through. -/
def listCombinator? : Call → Option Combinator
  | search fields _ => fields.items?.map fun _ => .or
  | isIn _ values => values.items?.map fun _ => .or
  | isNotIn _ values => values.items?.map fun _ => .and
  | between .. => some .and
  | notBetween .. => some .or
  | _ => none

/-- A call that writes no list writes one comparison, or no comparison at all. -/
def WritesOne (c : Call) : Prop :=
  (∃ d, c.fragments = [.comparison d] ∧ c.comparisons = [d])
    ∨ c.comparisons = [] ∧ ∃ f, c.fragments = [f] ∧ f.reservation? = none

lemma itemFragments_cases (combinator : Combinator) (items : Value)
    (comparison : Value → Comparison) :
    (items.items?.map (fun _ => combinator) = none
        ∧ (items.items?.getD []).map comparison = []
        ∧ ∃ f, itemFragments combinator items comparison = [f] ∧ f.reservation? = none)
      ∨ items.items?.map (fun _ => combinator) = some combinator
        ∧ itemFragments combinator items comparison
          = Comparison.groupFragments combinator ((items.items?.getD []).map comparison) := by
  rw [itemFragments]
  cases items.items? with
  | none => exact Or.inl ⟨rfl, rfl, _, rfl, rfl⟩
  | some vs => exact Or.inr ⟨rfl, rfl⟩

/-- A call writes one fragment, or its comparisons in parentheses. -/
lemma fragments_cases (c : Call) :
    (c.listCombinator? = none ∧ c.WritesOne)
      ∨ ∃ combinator, c.listCombinator? = some combinator
        ∧ c.fragments = Comparison.groupFragments combinator c.comparisons := by
  cases c with
  | compare op field value => exact Or.inl ⟨rfl, Or.inl ⟨_, rfl, rfl⟩⟩
  | search fields value | isIn field values | isNotIn field values =>
      exact (itemFragments_cases _ _ _).imp (fun h => ⟨h.1, Or.inr h.2⟩) fun h => ⟨_, h⟩
  | between field low high | notBetween field low high => exact Or.inr ⟨_, rfl, rfl⟩
  | verbatim raw =>
      refine Or.inl ⟨rfl, Or.inr ⟨rfl, ?_⟩⟩
      rw [fragments]
      cases raw.asText? <;> exact ⟨_, rfl, rfl⟩
  | _ => exact Or.inl ⟨rfl, Or.inr ⟨rfl, _, rfl, rfl⟩⟩

/-- All but a search compare with one field only. -/
lemma field_eq_of_mem_comparisons {c : Call} (h : ∀ fields value, c ≠ search fields value)
    {d e : Comparison} (hd : d ∈ c.comparisons) (he : e ∈ c.comparisons) : d.field = e.field := by
  cases c with
  | search fields value => exact absurd rfl (h fields value)
  | isIn field values | isNotIn field values =>
      obtain ⟨_, -, rfl⟩ := List.mem_map.1 hd
      obtain ⟨_, -, rfl⟩ := List.mem_map.1 he
      rfl
  | compare op field value =>
      rw [List.mem_singleton.1 hd, List.mem_singleton.1 he]
  | between field low high | notBetween field low high =>
      rcases List.mem_pair.1 hd with rfl | rfl <;> rcases List.mem_pair.1 he with rfl | rfl <;> rfl
  | _ => exact absurd hd List.not_mem_nil

lemma role?_of_listCombinator? {c : Call} {combinator : Combinator}
    (h : c.listCombinator? = some combinator) : c.role? = some .full := by
  cases c with
  | combine _ | unknown _ => cases h
  | _ => rfl

/-- An object on which only combinators can be called writes no comparison. -/
lemma fragmentsAs_restricted (c : Call) :
    ∃ f, c.fragmentsAs .restricted = [f] ∧ f.reservation? = none := by
  cases c <;> exact ⟨_, rfl, rfl⟩

/-- An object with all other calls writes one comparison for a call that writes no list, or none. -/
lemma fragmentsAs_full {c : Call} (h : c.listCombinator? = none) :
    (∃ d, c.fragmentsAs .full = [.comparison d] ∧ c.comparisons = [d])
      ∨ c.comparisons = [] ∧ ∃ f, c.fragmentsAs .full = [f] ∧ f.reservation? = none := by
  by_cases hrole : c.role? = some .full
  · rw [fragmentsAs, if_pos hrole]
    rcases c.fragments_cases with ⟨-, hone⟩ | ⟨_, hsome, -⟩
    · exact hone
    · cases h.symm.trans hsome
  · have hnone : c.comparisons = [] := by
      cases c with
      | combine _ | unknown _ => rfl
      | _ => exact absurd rfl hrole
    exact Or.inr ⟨hnone, _, if_neg hrole, rfl⟩

/-- A call that writes a list of comparisons does so in parentheses. -/
lemma fragmentsAs_of_listCombinator? {c : Call} {combinator : Combinator}
    (h : c.listCombinator? = some combinator) :
    c.fragmentsAs .full = Comparison.groupFragments combinator c.comparisons := by
  rw [fragmentsAs, if_pos (role?_of_listCombinator? h)]
  rcases c.fragments_cases with ⟨hnone, -⟩ | ⟨combinator', hsome, hfragments⟩
  · cases hnone.symm.trans h
  · obtain rfl := Option.some.inj (hsome.symm.trans h)
    exact hfragments

/-- If a list over one field fails, only moments have come through in front of the comparison that
fails, and nothing has been put aside. -/
lemma reservations_eq_nil {c : Call} (h : ∀ fields value, c ≠ search fields value)
    {before behind : List Comparison} {failing : Comparison} {fault : Fault}
    (hsplit : c.comparisons = before ++ failing :: behind)
    (hbefore : ∀ d ∈ before, d.Countable ∧ d.field.overlong = false)
    (hfailing : (Fragment.comparison failing).fault? = some fault) :
    before.filterMap Comparison.reservation? = [] := by
  refine List.filterMap_eq_nil_iff.2 fun d hd => ?_
  have hfield : d.field = failing.field :=
    field_eq_of_mem_comparisons h (hsplit ▸ List.mem_append_left _ hd)
      (hsplit ▸ List.mem_append_right _ List.mem_cons_self)
  obtain ⟨hcountable, hfits⟩ := hbefore d hd
  rcases Comparison.fault?_eq_some_iff.1 hfailing with ⟨-, hkey⟩ | ⟨-, hlong, -⟩
  · rcases hcountable with hmoment | ⟨k, hcounted⟩
    · rw [Comparison.reservation?, if_pos hmoment]
    · rw [hfield, hkey] at hcounted
      cases hcounted
  · rw [hfield, hlong] at hfits
    cases hfits

/-- The field that a call which writes one comparison, or none, has counted in vain if it fails. -/
def countedInVain? (c : Call) : Option Key := c.comparisons.head?.bind Comparison.countedInVain?

end Call

namespace Session

/-- The session after a call on an object of the given role. -/
def afterCall (s : Session) (role : Role) (c : Call) : Session :=
  s.after (c.performAs role s.placeholders)

/-- The session with one more value counted for a field, if one is given. -/
def countGiven (s : Session) (field? : Option Key) : Session :=
  { s with placeholders := s.placeholders.countGiven field? }

/-- A fragment that fails writes nothing. -/
lemma after_write_of_fault {f : Fragment} {fault : Fault} (h : f.fault? = some fault) (s : Session) :
    s.after (f.write s.placeholders)
      = { s with placeholders := s.placeholders.addAll f.reservation?.toList } := by
  rw [Fragment.write_of_fault h, after]
  exact congrArg (Session.mk · _) (List.append_nil s.query)

lemma after_writeOn_singleton (s : Session) (f : Fragment) :
    s.after (Fragment.writeOn [f] s.placeholders) = s.after (f.write s.placeholders) := by
  simp [Fragment.writeOn, after, Outcome.wrote]

/-- The text of a session goes on with the parenthesis. -/
lemma prefix_after_opening (s : Session) (combinator : Combinator) (cs : List Comparison) :
    s.query ++ ['(']
      <+: (s.after (Fragment.writeOn (Comparison.opening combinator cs) s.placeholders)).query :=
  ⟨_, List.append_assoc _ _ _⟩

end Session

namespace Call

variable {c : Call} {role : Role} {s : Session} {fault : Fault}

/-- A call that writes one fragment leaves what the fragment leaves. -/
lemma after_of_singleton {f : Fragment} (hcall : c.fragmentsAs role = [f])
    (h : (c.performAs role s.placeholders).fault = some fault) :
    f.fault? = some fault
      ∧ s.afterCall role c = { s with placeholders := s.placeholders.addAll f.reservation?.toList } := by
  rw [performAs_eq_writeAll, hcall, Fragment.writeAll_singleton, Fragment.fault_write] at h
  rw [Session.afterCall, performAs_eq_writeAll, hcall, Fragment.writeAll_singleton]
  exact ⟨h, s.after_write_of_fault h⟩

/-- A call without a comparison leaves nothing when it fails. -/
lemma after_of_reservation_eq_none {f : Fragment} (hcall : c.fragmentsAs role = [f])
    (hnone : f.reservation? = none) (h : (c.performAs role s.placeholders).fault = some fault) :
    s.afterCall role c = s := by
  rw [(after_of_singleton hcall h).2, hnone]
  rfl

/-- A call that writes no list leaves no more than a count when it fails. -/
lemma after_of_listCombinator?_eq_none (hlist : c.listCombinator? = none)
    (h : (c.performAs .full s.placeholders).fault = some fault) :
    s.afterCall .full c = s.countGiven c.countedInVain? := by
  rcases fragmentsAs_full hlist with ⟨d, hd, hcomparisons⟩ | ⟨hcomparisons, f, hf, hnone⟩
  · obtain ⟨hfault, hafter⟩ := after_of_singleton hd h
    rw [hafter, Fragment.reservation?_comparison, d.addAll_reservation? hfault, countedInVain?,
      hcomparisons]
    rfl
  · rw [after_of_reservation_eq_none hf hnone h, countedInVain?, hcomparisons]
    rfl

/-- **What a failed call leaves**: a call that fails leaves the text and the values of a session as
they were, and the counters too, unless it is a comparison whose field is counted in vain. Only a
call that has begun to write a list of comparisons leaves more. It fails at the first comparison that
cannot be made, and it leaves its parenthesis and the comparisons in front, with the combinator
behind each and their values put aside. Lists over one field have put no values aside by then. -/
theorem after_of_fault (h : (c.performAs role s.placeholders).fault = some fault) :
    (role = .restricted → s.afterCall role c = s)
    ∧ (role = .full → c.listCombinator? = none →
        s.afterCall role c = s.countGiven c.countedInVain?)
    ∧ ∀ combinator, role = .full → c.listCombinator? = some combinator →
      ∃ before failing behind, c.comparisons = before ++ failing :: behind
        ∧ (∀ d ∈ before, d.Countable ∧ d.field.overlong = false)
        ∧ ((failing.value.moment? = none ∧ failing.field.key = .error fault)
          ∨ failing.Countable ∧ failing.field.overlong = true ∧ fault = .tooManyDigits)
        ∧ s.afterCall role c
          = (s.after (Fragment.writeOn (Comparison.opening combinator before)
              s.placeholders)).countGiven failing.countedInVain?
        ∧ s.query ++ ['('] <+: (s.afterCall role c).query
        ∧ (s.afterCall role c).placeholders
          = (s.placeholders.addAll (before.filterMap Comparison.reservation?)).countGiven
              failing.countedInVain?
        ∧ ((∀ fields value, c ≠ search fields value) →
            (s.afterCall role c).placeholders
              = s.placeholders.countGiven failing.countedInVain?) := by
  refine ⟨?_, ?_, ?_⟩
  · rintro rfl
    obtain ⟨f, hf, hnone⟩ := c.fragmentsAs_restricted
    exact after_of_reservation_eq_none hf hnone h
  · rintro rfl hlist
    exact after_of_listCombinator?_eq_none hlist h
  · rintro combinator rfl hlist
    have hcall := fragmentsAs_of_listCombinator? hlist
    rw [performAs_eq_writeAll, hcall, Fragment.fault_writeAll, Comparison.firstFault?_groupFragments,
      List.findSome?_eq_some_iff] at h
    obtain ⟨before, failing, behind, hsplit, hfailing, hnoFault⟩ := h
    have hbefore : ∀ d ∈ before, d.Countable ∧ d.field.overlong = false :=
      fun d hd => Comparison.fault?_eq_none_iff.1 (hnoFault d hd)
    have hafter : s.afterCall .full c
        = (s.after (Fragment.writeOn (Comparison.opening combinator before)
            s.placeholders)).countGiven failing.countedInVain? := by
      rw [Session.afterCall, performAs_eq_writeAll, s.after_writeAll, hcall, hsplit,
        Comparison.tried_groupFragments hnoFault hfailing, s.after_writeOn_append,
        Session.after_writeOn_singleton, Session.after_write_of_fault hfailing,
        Fragment.reservation?_comparison, failing.addAll_reservation? hfailing]
      rfl
    have hplaceholders : (s.afterCall .full c).placeholders
        = (s.placeholders.addAll (before.filterMap Comparison.reservation?)).countGiven
            failing.countedInVain? := by
      rw [hafter, ← Comparison.filterMap_opening combinator, ← Fragment.placeholders_writeOn]
      rfl
    refine ⟨before, failing, behind, hsplit, hbefore, Comparison.fault?_eq_some_iff.1 hfailing, hafter,
      ?_, hplaceholders, fun hsearch => ?_⟩
    · rw [hafter]
      exact s.prefix_after_opening combinator before
    · rw [hplaceholders, reservations_eq_nil hsearch hsplit hbefore hfailing]
      rfl

end Call

/-- A comparison with a number as its field. -/
def Call.misnumbered (n : Int) : Call := .compare ⟨false, .equal⟩ (.int n) (.int 1)

/-- A number with too many digits is counted, but no key can be written with it. -/
lemma Call.fault_misnumbered {n : Int} (h : Text.exceedsLimit n = true) (p : Placeholders) :
    ((misnumbered n).performAs .full p).fault = some .tooManyDigits
      ∧ (misnumbered n).countedInVain? = some (.number (.ofInt n)) := by
  have hfault : (Fragment.comparison ⟨.int n, ⟨false, .equal⟩, .int 1⟩).fault?
      = some .tooManyDigits :=
    Comparison.fault?_eq_some_iff.2 (Or.inr ⟨Or.inr ⟨_, Value.key_int n⟩, h, rfl⟩)
  have hvain : (misnumbered n).countedInVain?
      = if !Text.exceedsLimit n then none else (Value.int n).key.toOption := rfl
  rw [hvain, h, Value.key_int]
  exact ⟨(Fragment.fault_write _ p).trans hfault, rfl⟩

/-- A list over a field that cannot be counted leaves the placeholders as they were, and a single
comparison with that field leaves everything. A number with too many digits is counted. -/
theorem Call.after_uncountedList :
    ((isIn (.list [.int 7]) (.list [.text "@now", .int 1])).performAs .full
        begunSession.placeholders).fault = some (.noKey "list")
      ∧ (begunSession.afterCall .full
          (isIn (.list [.int 7]) (.list [.text "@now", .int 1]))).placeholders
        = begunSession.placeholders
      ∧ begunSession.afterCall .full (compare ⟨false, .like⟩ (.list [.int 7]) (.int 1))
        = begunSession
      ∧ begunSession.afterCall .full (misnumbered Text.tooLong)
        = { begunSession with
            placeholders := begunSession.placeholders.count (.number (.ofInt Text.tooLong)) } := by
  have hlist : ((isIn (.list [.int 7]) (.list [.text "@now", .int 1])).performAs .full
      begunSession.placeholders).fault = some (.noKey "list") := rfl
  have hcompare : ((compare ⟨false, .like⟩ (.list [.int 7]) (.int 1)).performAs .full
      begunSession.placeholders).fault = some (.noKey "list") := rfl
  obtain ⟨-, -, hfailed⟩ := after_of_fault (s := begunSession) hlist
  obtain ⟨before, failing, behind, -, -, hfailing, -, -, -, hplaceholders⟩ := hfailed _ rfl rfl
  have hnone : failing.countedInVain? = none := by
    rcases hfailing with ⟨-, hkey⟩ | ⟨-, -, hother⟩
    · rw [Comparison.countedInVain?, hkey]
      exact ite_self _
    · cases hother
  obtain ⟨-, hsingle, -⟩ := after_of_fault (s := begunSession) hcompare
  obtain ⟨hfault, hvain⟩ := fault_misnumbered Text.exceedsLimit_tooLong begunSession.placeholders
  obtain ⟨-, hcounted, -⟩ := after_of_fault (s := begunSession) hfault
  refine ⟨hlist, ?_, hsingle rfl rfl, ?_⟩
  · rw [hplaceholders nofun, hnone]
    rfl
  · rw [hcounted rfl rfl, hvain]
    rfl

/-- A search over a field that can be counted and one that cannot. -/
def Call.halfSearch : Call := .search (.list [.text ['a'], .list [.text ['b']]]) (.int 1)

/-- A failed search has changed the text, the values and the counters. -/
theorem Call.after_halfSearch :
    (halfSearch.performAs .full {}).fault = some (.noKey "list")
      ∧ (({} : Session).afterCall .full halfSearch).query = "(a~{:a1} || "
      ∧ (({} : Session).afterCall .full halfSearch).placeholders.values = [(['a', '1'], .int 1)]
      ∧ (({} : Session).afterCall .full halfSearch).placeholders.counters = [(.text ['a'], 1)]
      ∧ ({} : Session).afterCall .full halfSearch ≠ {} := by
  have hquery : (({} : Session).afterCall .full halfSearch).query = "(a~{:a1} || " := rfl
  refine ⟨rfl, hquery, rfl, rfl, fun h => ?_⟩
  rw [h] at hquery
  cases hquery

end RecordQuery
