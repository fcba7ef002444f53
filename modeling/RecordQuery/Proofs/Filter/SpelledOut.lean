import RecordQuery.Proofs.Filter.Fragment

/-!
Calls that write several comparisons at once, spelled out as groups.

* `Script.joined` is the chain that makes comparisons one after the other, with a combinator between
  neighbours.
* `Call.ActsAs` says of a call that it does what a group with a given body does, whoever makes it
  and whatever comes behind it.
* `fragments_joined`: the chain writes between its parentheses what the call writes there.
* `listCalls_actAs_groups`: the calls that take lists, and those on ranges, act as the groups that
  spell them out.
-/

namespace RecordQuery

/-- The call that makes a comparison. -/
def Comparison.call (c : Comparison) : Call := .compare c.operator c.field c.value

namespace Script

/-- Comparisons one after the other, each with the combinator in front. -/
def joinedRest (combinator : Combinator) : List Comparison → Script
  | [] => done
  | c :: cs => call .latest (.combine combinator) (call .latest c.call (joinedRest combinator cs))

/-- Comparisons one after the other, with the combinator between neighbours. Each call is made on
the object that the one before it returned. -/
def joined (combinator : Combinator) : List Comparison → Script
  | [] => done
  | c :: cs => call .latest c.call (joinedRest combinator cs)

/-- Behind a first comparison, the objects at hand end with one that has the combinators only. -/
lemma fragments_joinedRest (combinator : Combinator) (cs : List Comparison) (objects : List Role) :
    (joinedRest combinator cs).fragments (.restricted :: objects)
      = cs.flatMap fun c => [.verbatim combinator.text, .comparison c] := by
  induction cs generalizing objects with
  | nil => rfl
  | cons c cs ih =>
      have hcombine : (Call.combine combinator).fragmentsAs .restricted
          = [.verbatim combinator.text] := rfl
      have hcompare : c.call.fragmentsAs .full = [.comparison c] := rfl
      calc (joinedRest combinator (c :: cs)).fragments (.restricted :: objects)
          = (Call.combine combinator).fragmentsAs .restricted ++ (c.call.fragmentsAs .full
            ++ (joinedRest combinator cs).fragments
              (.restricted :: .full :: .restricted :: objects)) := rfl
        _ = (c :: cs).flatMap fun c => [.verbatim combinator.text, .comparison c] := by
              rw [hcombine, hcompare, ih]
              rfl

/-- Joined comparisons write what they write inside of a call for all of them. -/
theorem fragments_joined (combinator : Combinator) (cs : List Comparison) :
    (joined combinator cs).fragments [.full] = Comparison.fragments combinator cs := by
  cases cs with
  | nil => rfl
  | cons c cs =>
      have hcompare : c.call.fragmentsAs .full = [.comparison c] := rfl
      calc (joined combinator (c :: cs)).fragments [.full]
          = c.call.fragmentsAs .full
            ++ (joinedRest combinator cs).fragments (.restricted :: [.full]) := rfl
        _ = Comparison.fragments combinator (c :: cs) := by
              rw [hcompare, fragments_joinedRest]
              rfl

end Script

namespace Call

/-- The call does what a group with that body does. Made on an object that has both and with any
calls behind it, it leaves the same text, the same placeholders and the same fault where a fault
ends the script, and the same reports where the caller goes on. -/
def ActsAs (c : Call) (body : Script) : Prop :=
  ∀ (on : Handle) (objects : List Role) (rest : Script), on.role objects = .full →
    (∀ p, (Script.call on c rest).run objects p = (Script.group on body rest).run objects p)
      ∧ ∀ s, (Script.call on c rest).reportsFrom objects s
          = (Script.group on body rest).reportsFrom objects s

/-- A call acts as a group if it writes the group's body in parentheses. -/
theorem actsAs_of_fragments {c : Call} {body : Script} (hrole : c.role? = some .full)
    (hnext : c.nextRole = .restricted)
    (h : c.fragments = .verbatim ['('] :: body.fragments [.full] ++ [.verbatim [')']]) :
    c.ActsAs body := by
  intro on objects rest hon
  have hfragments (rest : Script) :
      (Script.call on c rest).fragments objects
        = (Script.group on body rest).fragments objects := by
    simp [Script.fragments, hon, fragmentsAs, hrole, hnext, h]
  refine ⟨fun p => ?_, fun s => ?_⟩
  · rw [Script.run_eq_writeAll, Script.run_eq_writeAll, hfragments]
  · have hperform : c.performAs (on.role objects) s.placeholders
        = (Script.group on body .done).run objects s.placeholders := by
      rw [performAs_eq_writeAll, Script.run_eq_writeAll, ← hfragments]
      simp [Script.fragments]
    rw [Script.reportsFrom, Script.reportsFrom, hperform, hnext]

lemma groupFragments_eq_joined (combinator : Combinator) (cs : List Comparison) :
    Comparison.groupFragments combinator cs
      = .verbatim ['(']
        :: (Script.joined combinator cs).fragments [.full] ++ [.verbatim [')']] := by
  rw [Script.fragments_joined]
  rfl

lemma itemFragments_eq_joined {items : Value} {vs : List Value} (h : items.items? = some vs)
    (combinator : Combinator) (comparison : Value → Comparison) :
    itemFragments combinator items comparison
      = .verbatim ['('] :: (Script.joined combinator (vs.map comparison)).fragments [.full]
        ++ [.verbatim [')']] := by
  rw [itemFragments, h]
  exact groupFragments_eq_joined combinator _

/-- **Lists and ranges spelled out**: to ask whether a field equals any of some values is a group
that compares the field with each of them, joined by `or`; to ask whether it differs from all of
them is one joined by `and`; to search fields is a group with a comparison for each field, joined by
`or`; and ranges are groups of two comparisons. The items are those of a list or of anything else
that yields some. Without items, nothing is done inside of the group. -/
theorem listCalls_actAs_groups :
    (∀ field values vs, values.items? = some vs →
        (isIn field values).ActsAs
          (.joined .or (vs.map fun value => ⟨field, ⟨false, .equal⟩, value⟩)))
      ∧ (∀ field values vs, values.items? = some vs →
        (isNotIn field values).ActsAs
          (.joined .and (vs.map fun value => ⟨field, ⟨false, .notEqual⟩, value⟩)))
      ∧ (∀ fields value vs, fields.items? = some vs →
        (search fields value).ActsAs
          (.joined .or (vs.map fun field => ⟨field, ⟨false, .like⟩, value⟩)))
      ∧ (∀ field low high, (between field low high).ActsAs
          (.joined .and [⟨field, ⟨false, .greaterThanOrEqual⟩, low⟩,
            ⟨field, ⟨false, .lessThanOrEqual⟩, high⟩]))
      ∧ (∀ field low high, (notBetween field low high).ActsAs
          (.joined .or [⟨field, ⟨false, .lessThan⟩, low⟩, ⟨field, ⟨false, .greaterThan⟩, high⟩]))
      ∧ ∀ combinator, Script.joined combinator [] = .done := by
  refine ⟨fun field values vs h => ?_, fun field values vs h => ?_, fun fields value vs h => ?_,
    fun field low high => ?_, fun field low high => ?_, fun combinator => rfl⟩
  · exact actsAs_of_fragments rfl rfl (itemFragments_eq_joined h _ _)
  · exact actsAs_of_fragments rfl rfl (itemFragments_eq_joined h _ _)
  · exact actsAs_of_fragments rfl rfl (itemFragments_eq_joined h _ _)
  · exact actsAs_of_fragments rfl rfl (groupFragments_eq_joined _ _)
  · exact actsAs_of_fragments rfl rfl (groupFragments_eq_joined _ _)

/-- A field that cannot be counted is compared with a moment and then with a number. -/
def uncountedList : Script :=
  .call .latest (isIn (.list [.int 7]) (.list [.text "@now", .int 1])) .done

/-- The group that spells the list out. -/
def uncountedGroup : Script :=
  .group .latest (.joined .or [⟨.list [.int 7], ⟨false, .equal⟩, .text "@now"⟩,
    ⟨.list [.int 7], ⟨false, .equal⟩, .int 1⟩]) .done

/-- A session that has a text and a value already. -/
def begunSession : Session := ⟨"b={:b1} && ", ({} : Placeholders).addAll [(.text ['b'], .int 7)]⟩

/-- The number has no key, so both fail behind the combinator and leave the same open group. -/
theorem uncountedList_actsAs_group :
    uncountedList.reportsFrom [.full] begunSession = uncountedGroup.reportsFrom [.full] begunSession
      ∧ (uncountedList.reportsFrom [.full] begunSession).map Report.answer
        = [.error (.noKey "list")]
      ∧ (uncountedList.reportsFrom [.full] begunSession).map (·.session.query)
        = [("b={:b1} && ([7]=@now || " : Text)] := by
  have h := (listCalls_actAs_groups.1 (.list [.int 7]) (.list [.text "@now", .int 1]) _ rfl)
    .latest [.full] .done rfl
  exact ⟨h.2 begunSession, rfl, rfl⟩

end Call

end RecordQuery
