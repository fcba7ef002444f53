import RecordQuery.Proofs.Filter.Filling
import RecordQuery.Proofs.Filter.Trace
import RecordQuery.Proofs.Value.Literal

/-!
Tokens and values cover each other.

* `Script.Braceless` holds of a script whose fields, whatever their kind, and whose verbatim texts
  have no braces. What its calls write is then `Fragment.Braceless` as well
  (`Script.Braceless.trace`).
* `Fragment.tokenKeys_writeAll`: the tokens of such a text are those of the keys under which its
  values are put aside, in the same order, whether or not two of the keys are the same.
* `Script.tokenKeys_eq_keys`: at every moment of a script, after calls that failed as well, the keys
  of the tokens are those of the values, and no token is without a value.
-/

namespace RecordQuery

/-! ### Texts without braces -/

/-- The text has no braces. -/
def Text.Braceless (t : Text) : Prop := ∀ c ∈ t, c ∉ Fragment.braces

instance (t : Text) : Decidable t.Braceless := List.decidableBAll (· ∉ Fragment.braces) t

lemma Text.Braceless.append {t u : Text} (ht : t.Braceless) (hu : u.Braceless) :
    Text.Braceless (t ++ u) := fun c hc => (List.mem_append.1 hc).elim (ht c) (hu c)

/-- The fields that a call names. -/
def Call.fields : Call → List Value
  | compare _ field _ => [field]
  | search fields _ => fields.items?.getD []
  | isIn field _ => [field]
  | isNotIn field _ => [field]
  | between field _ _ => [field]
  | notBetween field _ _ => [field]
  | isEmpty field => [field]
  | isNotEmpty field => [field]
  | verbatim _ => []
  | combine _ => []
  | unknown _ => []

/-- The text that a call writes as it is given. -/
def Call.raw? : Call → Option Text
  | verbatim raw => raw.asText?
  | _ => none

/-- Neither the fields nor the verbatim text of a call have braces. -/
structure Call.Braceless (c : Call) : Prop where
  fields : ∀ field ∈ c.fields, field.display.Braceless
  raw : ∀ t ∈ c.raw?, Text.Braceless t

/-- Neither the fields nor the verbatim texts of a script have braces. -/
def Script.Braceless (script : Script) : Prop := ∀ c ∈ script.calls, c.Braceless

namespace Fragment

/-- The texts of the fragment have no braces. -/
def Braceless : Fragment → Prop
  | verbatim t => t.Braceless
  | emptiness field _ => field.display.Braceless
  | comparison c => c.field.display.Braceless
  | refusal _ => True

end Fragment

lemma Text.braceless_parentheses : Text.Braceless ['('] ∧ Text.Braceless [')'] :=
  ⟨by decide, by decide⟩

lemma Combinator.braceless_text (combinator : Combinator) : combinator.text.Braceless := by
  cases combinator <;> decide

lemma Comparison.braceless_groupFragments (combinator : Combinator) {cs : List Comparison}
    (h : ∀ c ∈ cs, c.field.display.Braceless) :
    ∀ f ∈ groupFragments combinator cs, f.Braceless := by
  obtain ⟨hopen, hclose⟩ := Text.braceless_parentheses
  have hinner : ∀ f ∈ fragments combinator cs, f.Braceless := by
    cases cs with
    | nil => simp [fragments]
    | cons c cs =>
        rw [List.forall_mem_cons] at h
        refine List.forall_mem_cons.2 ⟨h.1, fun f hf => ?_⟩
        obtain ⟨d, hd, hf⟩ := List.mem_flatMap.1 hf
        rcases List.mem_pair.1 hf with rfl | rfl
        · exact combinator.braceless_text
        · exact h.2 d hd
  rw [groupFragments]
  simp only [List.cons_append, List.forall_mem_cons, List.forall_mem_append]
  exact ⟨hopen, hinner, hclose, by simp⟩

namespace Call

lemma braceless_itemFragments (combinator : Combinator) (items : Value)
    {comparison : Value → Comparison}
    (h : ∀ item ∈ items.items?.getD [], (comparison item).field.display.Braceless) :
    ∀ f ∈ itemFragments combinator items comparison, f.Braceless := by
  rw [itemFragments]
  cases hitems : items.items? with
  | none => simp [Fragment.Braceless]
  | some items' =>
      refine Comparison.braceless_groupFragments combinator fun c hc => ?_
      obtain ⟨item, hitem, rfl⟩ := List.mem_map.1 hc
      exact h item (by rwa [hitems])

/-- A call without braces writes fragments without braces. -/
lemma Braceless.fragmentsAs {c : Call} (h : c.Braceless) (role : Role) :
    ∀ f ∈ c.fragmentsAs role, f.Braceless := by
  rw [Call.fragmentsAs]
  split
  case isFalse => simp [Fragment.Braceless]
  obtain ⟨hfields, hraw⟩ := h
  have hfield (field : Value) (h : ∀ g ∈ [field], g.display.Braceless) : field.display.Braceless :=
    h field List.mem_cons_self
  cases c with
  | compare op field value => exact List.forall_mem_singleton.2 (hfield field hfields)
  | search fields value => exact braceless_itemFragments .or fields hfields
  | isIn field values =>
      exact braceless_itemFragments .or values fun _ _ => hfield field hfields
  | isNotIn field values =>
      exact braceless_itemFragments .and values fun _ _ => hfield field hfields
  | between field low high =>
      have hdisplay : field.display.Braceless := hfield field hfields
      exact Comparison.braceless_groupFragments .and (by simpa using hdisplay)
  | notBetween field low high =>
      have hdisplay : field.display.Braceless := hfield field hfields
      exact Comparison.braceless_groupFragments .or (by simpa using hdisplay)
  | isEmpty field => exact List.forall_mem_singleton.2 (hfield field hfields)
  | isNotEmpty field => exact List.forall_mem_singleton.2 (hfield field hfields)
  | verbatim raw =>
      rw [fragments]
      cases htext : raw.asText? with
      | none => simp [Fragment.Braceless]
      | some t => simpa [Fragment.Braceless] using hraw t htext
  | combine combinator => exact List.forall_mem_singleton.2 combinator.braceless_text
  | unknown name => simp [fragments, Fragment.Braceless]

end Call

namespace Script

/-- A script without braces writes fragments without braces. -/
lemma Braceless.fragments {script : Script} (h : script.Braceless) (objects : List Role) :
    ∀ f ∈ script.fragments objects, f.Braceless := by
  obtain ⟨hopen, hclose⟩ := Text.braceless_parentheses
  induction script generalizing objects with
  | done => simp [Script.fragments]
  | call on c rest ih =>
      obtain ⟨hc, hrest⟩ := List.forall_mem_cons.1 h
      exact List.forall_mem_append.2 ⟨hc.fragmentsAs _, ih hrest _⟩
  | group on body rest ihBody ihRest =>
      obtain ⟨hbody, hrest⟩ := List.forall_mem_append.1 h
      rw [Script.fragments]
      cases on.role objects with
      | restricted => simp [Fragment.Braceless]
      | full =>
          simp only [List.cons_append, List.forall_mem_cons, List.forall_mem_append]
          exact ⟨hopen, ihBody hbody _, hclose, ihRest hrest _⟩

lemma Braceless.steps {script : Script} (h : script.Braceless) (objects : List Role) :
    ∀ step ∈ script.steps objects, ∀ f ∈ step.fragments, f.Braceless := by
  induction script generalizing objects with
  | done => simp [Script.steps]
  | call on c rest ih =>
      obtain ⟨hc, hrest⟩ := List.forall_mem_cons.1 h
      exact List.forall_mem_cons.2 ⟨hc.fragmentsAs _, ih hrest _⟩
  | group on body rest _ ih =>
      obtain ⟨hbody, hrest⟩ := List.forall_mem_append.1 h
      have hgroup : (group on body done).Braceless := by
        simpa [Script.Braceless, calls] using hbody
      exact List.forall_mem_cons.2 ⟨hgroup.fragments objects, ih hrest _⟩

/-- All that the calls of a script without braces write has no braces, but for placeholders. -/
theorem Braceless.trace {script : Script} (h : script.Braceless) :
    ∀ f ∈ script.trace, f.Braceless := by
  intro f hf
  obtain ⟨step, hstep, hf⟩ := List.mem_flatMap.1 hf
  exact h.steps [.full] step hstep f (Fragment.tried_subset _ hf)

end Script

/-! ### The tokens of what is written -/

namespace Fragment

variable {f : Fragment} {fs : List Fragment}

lemma head_ne (h : f.Braceless) : ∀ c ∈ f.head, c ≠ '{' := by
  cases f with
  | verbatim t => exact ne_of_not_mem_braces h
  | emptiness field negated =>
      have htail : (emptinessMark negated).Braceless := by cases negated <;> decide
      exact ne_of_not_mem_braces (Text.Braceless.append h htail)
  | comparison c =>
      intro x hx
      rcases List.mem_append.1 hx with hx | hx
      · exact (List.mem_append.1 hx).elim (ne_of_not_mem_braces h x) operator_text_ne
      · cases hm : c.value.moment? with
        | none => simp [hm] at hx
        | some moment => exact moment_text_ne (by simpa [hm] using hx)
  | refusal fault => simp [head]

lemma braceless_of_reservation {field value : Value} (h : f.Braceless)
    (hvalue : f.reservation? = some (field, value)) : field.display.Braceless := by
  cases f with
  | comparison c =>
      obtain ⟨-, rfl, -⟩ := Comparison.reservation?_eq_some_iff.1 hvalue
      exact h
  | _ => simp [reservation?] at hvalue

/-- A fragment has a token for the key under which its value is put aside, and no other. -/
lemma tokenKeys_write_append (hbrace : f.Braceless) (p : Placeholders) (rest : Text) :
    Filter.tokenKeys ((f.write p).text ++ rest)
      = Table.keys (p.entered f.reservation?.toList) ++ Filter.tokenKeys rest := by
  obtain ⟨fault, hfault, hwrite⟩ | ⟨-, ⟨hnone, hwrite⟩ | ⟨field, value, k, hvalue, hk, hfits, hwrite⟩⟩ :=
    f.outcome_cases p
  · rw [hwrite, entered_of_fault hfault]
    rfl
  · rw [hwrite, hnone]
    exact Filter.tokenKeys_append_of_ne (head_ne hbrace) rest
  · obtain ⟨hne, hkey⟩ := key_ok (braceless_of_reservation hbrace hvalue) (p.nextOrdinal k)
    have hentered : p.entered [(field, value)] = [(p.nextKey field k, value)] := by
      rw [Placeholders.entered, Placeholders.add_of_fits hk hfits]
      rfl
    rw [hwrite, hvalue, Option.toList_some, hentered, Outcome.wrote, List.append_assoc,
      Filter.tokenKeys_append_of_ne (head_ne hbrace)]
    exact Filter.tokenKeys_placeholder_append hne hkey rest

/-- The tokens of what is written are those of the keys under which the values are put aside. -/
theorem tokenKeys_writeOn (hbraces : ∀ f ∈ fs, f.Braceless) (p : Placeholders) :
    Filter.tokenKeys (writeOn fs p).text = Table.keys (p.entered (fs.filterMap reservation?)) := by
  induction fs generalizing p with
  | nil => simp [writeOn, Outcome.wrote, Filter.tokenKeys, Placeholders.entered, Table.keys]
  | cons f fs ih =>
      obtain ⟨hbrace, hbraces⟩ := List.forall_mem_cons.1 hbraces
      have htext : (writeOn (f :: fs) p).text
          = (f.write p).text ++ (writeOn fs (f.write p).placeholders).text := rfl
      rw [htext, tokenKeys_write_append hbrace, ih hbraces, placeholders_write,
        filterMap_reservation?_cons, Placeholders.entered_append, Table.keys_append]

end Fragment

/-! ### No token without a value -/

lemma Filter.fault_of_fillPieces {values : Table Text Value} {ps : List Piece} {fault : Fault}
    (h : fillPieces values ps = .error fault) : ∃ value : Value, value.literal = .error fault := by
  induction ps with
  | nil => cases h
  | cons p ps ih =>
      rcases error_of_bind h with h | ⟨first, -, h⟩
      · rw [fillPiece] at h
        split at h
        case h_1 value _ => exact ⟨value, h⟩
        case h_2 => cases h
      rcases error_of_bind h with h | ⟨rest, -, h⟩
      · exact ih h
      · cases h

/-- The filter of a session, with the values put aside for it. -/
def Session.openFilter (s : Session) : OpenFilter := ⟨s.query, s.placeholders.values⟩

/-- **Tokens and values cover each other**: whatever calls a script without braces makes, and
whichever of them fail, at every moment the keys of the tokens in the query, each where it came
first, are the keys of the values. So closing the filter neither refuses a token nor warns of one.
The sessions that are reported after the calls are such moments. -/
theorem Script.tokenKeys_eq_keys {script : Script} (h : script.Braceless) :
    (∀ report ∈ script.reports {}, ∃ n, report.session = script.moment n)
      ∧ ∀ n, (Filter.tokenKeys (script.moment n).query).eraseDups
            = (script.moment n).placeholders.values.keys
          ∧ ∀ strict, ((script.moment n).openFilter.close strict).log = []
            ∧ ∀ keys, ((script.moment n).openFilter.close strict).result ≠ .error (.unbound keys) := by
  refine ⟨fun report hreport => ?_, fun n => ?_⟩
  · rw [reports_eq_mapIdx, List.mem_mapIdx] at hreport
    obtain ⟨i, hi, rfl⟩ := hreport
    exact ⟨_, rfl⟩
  · have hbraces : ∀ f ∈ script.trace.take n, f.Braceless :=
      fun f hf => h.trace f (List.mem_of_mem_take hf)
    have htokens := Fragment.tokenKeys_writeOn hbraces {}
    have hkeys : (Filter.tokenKeys (script.moment n).query).eraseDups
        = (script.moment n).placeholders.values.keys := by
      rw [placeholders_moment, Placeholders.values_addAll_eq_putAll]
      exact (congrArg List.eraseDups htokens).trans (Table.keys_ofList _).symm
    have hclose (strict : Bool) : (script.moment n).openFilter.close strict
        = ⟨(script.moment n).openFilter.fill, []⟩ :=
      OpenFilter.close_of_isSome (fun key hkey => Table.isSome_get?_iff.2
        (hkeys ▸ List.mem_eraseDups.2 hkey)) strict
    refine ⟨hkeys, fun strict => ?_⟩
    rw [hclose strict]
    refine ⟨rfl, fun keys hfill => ?_⟩
    obtain ⟨value, hvalue⟩ := Filter.fault_of_fillPieces hfill
    obtain hfault | ⟨_ | _, hfault⟩ := Value.fault_of_literal hvalue <;> cases hfault

/-- A comparison, a group that fails in a list for want of a field that can be counted, and another
comparison. -/
def Script.failingScript : Script :=
  .call .latest (.compare ⟨false, .equal⟩ (.text ['a']) (.int 1)) <|
  .call .latest (.combine .and) <|
  .group .latest (.call .latest (.isIn (.list [.int 7]) (.list [.int 2])) .done) <|
  .call .builder (.compare ⟨false, .equal⟩ (.text ['b']) (.text ['x'])) .done

lemma Script.braceless_failingScript : failingScript.Braceless := by
  have hcompare (op : Operator) (name : Text) (value : Value) (h : name.Braceless) :
      (Call.compare op (.text name) value).Braceless :=
    ⟨List.forall_mem_singleton.2 h, nofun⟩
  have hcombine : (Call.combine .and).Braceless := ⟨nofun, nofun⟩
  have hlist : (Call.isIn (.list [.int 7]) (.list [.int 2])).Braceless :=
    ⟨List.forall_mem_singleton.2 (by decide), nofun⟩
  exact List.forall_mem_cons.2 ⟨hcompare _ _ _ (by decide), List.forall_mem_cons.2 ⟨hcombine,
    List.forall_mem_cons.2 ⟨hlist, List.forall_mem_singleton.2 (hcompare _ _ _ (by decide))⟩⟩⟩

/-- The group of the sample fails and leaves its parentheses open, and still every token has its
value. -/
theorem Script.tokenKeys_eq_keys_failing :
    (failingScript.reports {}).map Report.answer
        = [.ok .restricted, .ok .full, .error (.noKey "list"), .ok .restricted]
      ∧ (failingScript.moment 6).query = "a={:a1} && ((b={:b1}"
      ∧ (Filter.tokenKeys "a={:a1} && ((b={:b1}").eraseDups = [['a', '1'], ['b', '1']]
      ∧ ∀ keys, ((failingScript.moment 6).openFilter.close true).result
          ≠ .error (.unbound keys) := by
  have h := (tokenKeys_eq_keys braceless_failingScript).2 6
  have hquery : (failingScript.moment 6).query = "a={:a1} && ((b={:b1}" := rfl
  have hkeys : (failingScript.moment 6).placeholders.values.keys = [['a', '1'], ['b', '1']] := rfl
  exact ⟨rfl, hquery, hkeys ▸ hquery ▸ h.1, (h.2 true).2⟩

end RecordQuery
