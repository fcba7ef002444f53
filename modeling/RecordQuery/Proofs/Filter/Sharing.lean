import RecordQuery.Proofs.Filter.Filling

/-!
Filters that share their placeholders.

* `Placeholders.afterAll` is what scripts leave behind that are performed one after the other, and
  `Composable` collects what is asked of them: every call succeeds, fields are texts without braces,
  no field is another one with digits behind it, and every value can be written.
* `performAll_of_plain`: the values that the scripts put aside follow each other in the order of the
  scripts, so each script finds its own values again in the common table.
* `close_eq_direct`: closing any of the filters gives what writing its values at once would give,
  whatever the others put aside, and the same holds of the filter of a request.
-/

namespace RecordQuery

namespace Script

/-- The text of a script with the literal of each value in place of its placeholder. -/
def direct (script : Script) : Except Fault Text := Fragment.directAll (script.fragments [.full])

/-- The values that a script puts aside, with the texts of their fields. -/
def reserved (script : Script) : List (Text × Value) :=
  Fragment.reserved (script.fragments [.full])

end Script

/-- The filter that a call leaves to someone who starts with an empty text. -/
def Outcome.openFilter (o : Outcome) : OpenFilter := ⟨o.text, o.placeholders.values⟩

namespace Placeholders

/-- The placeholders after scripts have been performed one after the other. -/
def afterAll (p : Placeholders) (scripts : List Script) : Placeholders :=
  scripts.foldl (fun p script => (script.finish { placeholders := p }).placeholders) p

lemma afterAll_cons (p : Placeholders) (script : Script) (scripts : List Script) :
    p.afterAll (script :: scripts)
      = (script.finish { placeholders := p }).placeholders.afterAll scripts := rfl

/-- Every field for which a value was put aside is counted. -/
lemma mem_keys_counters {p : Placeholders} {earlier : List Text} (h : p.HasSeen earlier)
    {field : Text} (hfield : field ∈ earlier) : Key.text field ∈ p.counters.keys := by
  have hcount := List.count_pos_iff.2 hfield
  have hnext := h field
  rw [nextOrdinal] at hnext
  refine Table.isSome_get?_iff.1 ?_
  cases hget : p.counters.get? (.text field) with
  | none =>
      rw [hget, Option.getD_none] at hnext
      omega
  | some n => rfl

/-- What some of the calls put aside is among the entries of all of them. -/
lemma mem_entriesAfter_append {before calls after : List (Text × Value)} {entry : Text × Value}
    (h : entry ∈ entriesAfter (before.map Prod.fst) calls) :
    entry ∈ entriesAfter [] (before ++ calls ++ after) := by
  rw [entriesAfter_append, entriesAfter_append, List.nil_append]
  exact List.mem_append_left _ (List.mem_append_right _ h)

section

variable {script : Script} {before : List (Text × Value)}

/-- A script without braces goes on where others have put values aside, and the tokens that a scan
finds are those of its own keys. -/
lemma perform_of_plain (hplain : ∀ f ∈ script.fragments [.full], f.Plain Fragment.braces)
    (hok : (script.perform (ofCalls before)).fault = none) :
    (script.perform (ofCalls before)).placeholders = ofCalls (before ++ script.reserved)
      ∧ Filter.tokenKeys (script.perform (ofCalls before)).text
          = keysAfter (before.map Prod.fst) (script.reserved.map Prod.fst) := by
  rw [Script.perform, Script.run_eq_writeAll] at hok ⊢
  rw [ofCalls_append]
  exact (Fragment.Written.of_plain (hasSeen_ofCalls before) hplain hok).placeholders_and_keys

/-- A filter whose values are found under their keys closes to the text that is written at once. -/
lemma close_of_plain {values : Table Text Value}
    (hplain : ∀ f ∈ script.fragments [.full], f.Plain Fragment.braces)
    (hok : (script.perform (ofCalls before)).fault = none)
    (hvalues : ∀ entry ∈ entriesAfter (before.map Prod.fst) script.reserved,
      values.get? entry.1 = some entry.2)
    (hliterals : ∀ entry ∈ script.reserved, ∃ t, entry.2.literal = .ok t) :
    ∃ t, script.direct = .ok t ∧ ∀ strict,
      ({ query := (script.perform (ofCalls before)).text, values } : OpenFilter).close strict
        = ⟨.ok t, []⟩ := by
  rw [Script.perform, Script.run_eq_writeAll] at hok ⊢
  exact (Fragment.Written.of_plain (hasSeen_ofCalls before) hplain hok).close_eq hvalues hliterals

/-- A script all of whose calls succeed ends as it does for a caller who stops at a fault. -/
lemma finish_of_succeeds (hok : script.Succeeds [.full] { placeholders := ofCalls before }) :
    (script.perform (ofCalls before)).fault = none
      ∧ (script.finish { placeholders := ofCalls before }).query
          = (script.perform (ofCalls before)).text
      ∧ (script.finish { placeholders := ofCalls before }).placeholders
          = (script.perform (ofCalls before)).placeholders := by
  have hfault := Script.succeeds_iff.1 hok
  have hsession : script.finish { placeholders := ofCalls before }
      = ({ placeholders := ofCalls before } : Session).after (script.perform (ofCalls before)) :=
    Script.finishFrom_eq_after hfault
  rw [hsession]
  exact ⟨hfault, rfl, rfl⟩

end

/-- Scripts without braces, all of whose calls succeed, put their values aside in the order in which
they are performed. -/
theorem performAll_of_plain {scripts : List Script} {before : List (Text × Value)}
    (hplain : ∀ script ∈ scripts, ∀ f ∈ script.fragments [.full], f.Plain Fragment.braces)
    (hok : ∀ run ∈ (ofCalls before).performAll scripts, run.2.Succeeds [.full] run.1) :
    (ofCalls before).afterAll scripts = ofCalls (before ++ scripts.flatMap Script.reserved)
      ∧ ∀ run ∈ (ofCalls before).performAll scripts, run.2 ∈ scripts
          ∧ ∃ pre post, run.1 = { placeholders := ofCalls pre }
            ∧ before ++ scripts.flatMap Script.reserved = pre ++ run.2.reserved ++ post := by
  induction scripts generalizing before with
  | nil => exact ⟨by simp [afterAll], by simp [performAll]⟩
  | cons script scripts ih =>
      rw [performAll] at hok
      have hfirst := hok _ List.mem_cons_self
      obtain ⟨hfault, -, hfinish⟩ := finish_of_succeeds hfirst
      have hp := hfinish.trans (perform_of_plain (hplain script List.mem_cons_self) hfault).1
      have hrest : ∀ run ∈ (ofCalls (before ++ script.reserved)).performAll scripts,
          run.2.Succeeds [.full] run.1 := by
        intro run hrun
        rw [← hp] at hrun
        exact hok run (List.mem_cons_of_mem _ hrun)
      obtain ⟨hafter, hruns⟩ :=
        ih (fun s hs => hplain s (List.mem_cons_of_mem _ hs)) hrest
      rw [List.flatMap_cons, ← List.append_assoc]
      refine ⟨by rw [afterAll_cons, hp, hafter], fun run hrun => ?_⟩
      rw [performAll, List.mem_cons] at hrun
      rcases hrun with rfl | hrun
      · exact ⟨List.mem_cons_self, before, _, rfl, rfl⟩
      · have hrun' : run ∈ (ofCalls (before ++ script.reserved)).performAll scripts := hp ▸ hrun
        obtain ⟨hmem, hsplit⟩ := hruns run hrun'
        exact ⟨List.mem_cons_of_mem _ hmem, hsplit⟩

/-- What is asked of scripts that share placeholders in which values for some fields have been put
aside beforehand. -/
structure Composable (calls : List (Text × Value)) (scripts : List Script) : Prop where
  succeeds : ∀ run ∈ (ofCalls calls).performAll scripts, run.2.Succeeds [.full] run.1
  plain : ∀ script ∈ scripts, ∀ f ∈ script.fragments [.full], f.Plain Fragment.braces
  /-- No field that is counted at the end is another one with digits behind it. -/
  apart : ∀ f g d : Text, .text f ∈ ((ofCalls calls).afterAll scripts).counters.keys →
    .text g ∈ ((ofCalls calls).afterAll scripts).counters.keys →
      d ≠ [] → (∀ c ∈ d, c.isDigit) → g ≠ f ++ d
  literals : ∀ entry ∈ ((ofCalls calls).afterAll scripts).values, ∃ t, entry.2.literal = .ok t

/-- Each of the scripts closes, over the values of all of them, to the text that is written at
once. -/
theorem Composable.close {calls : List (Text × Value)} {scripts : List Script}
    (h : Composable calls scripts) {run : Session × Script}
    (hrun : run ∈ (ofCalls calls).performAll scripts) :
    ∃ t, run.2.direct = .ok t ∧ ∀ strict,
      ({ query := (run.2.finish run.1).query
         values := ((ofCalls calls).afterAll scripts).values } : OpenFilter).close strict
        = ⟨.ok t, []⟩ := by
  obtain ⟨hfinal, hruns⟩ := performAll_of_plain h.plain h.succeeds
  obtain ⟨hmem, pre, post, hstart, htotal⟩ := hruns run hrun
  have happart := h.apart
  have hliterals := h.literals
  have hok := h.succeeds run hrun
  rw [hfinal, htotal] at happart hliterals ⊢
  rw [hstart] at hok ⊢
  have hnodup : (keysAfter [] ((pre ++ run.2.reserved ++ post).map Prod.fst)).Nodup := by
    refine (nodup_keysAfter_iff _).2 (Separate.of_forall_ne fun f hf g hg d hd hdigits => ?_)
    exact happart f g d (mem_keys_counters (hasSeen_ofCalls _) hf)
      (mem_keys_counters (hasSeen_ofCalls _) hg) hd hdigits
  obtain ⟨hfault, hquery, -⟩ := finish_of_succeeds hok
  rw [hquery]
  refine close_of_plain (h.plain run.2 hmem) hfault (fun entry hentry => ?_) fun entry hentry => ?_
  · exact @get?_ofCalls_of_nodup [] _ hnodup _ (mem_entriesAfter_append hentry)
  · have hvalue : entry.2 ∈ (entriesAfter (pre.map Prod.fst) run.2.reserved).map Prod.snd := by
      rw [map_snd_entriesAfter]
      exact List.mem_map_of_mem hentry
    obtain ⟨kept, hkept, hsame⟩ := List.mem_map.1 hvalue
    rw [← hsame]
    refine hliterals kept ?_
    rw [values_ofCalls_of_nodup hnodup]
    exact mem_entriesAfter_append hkept

end Placeholders

namespace Request

/-- A new filter changes nothing about whether the parameters can be made. -/
lemma params_ok_of_filter {r : Request} {params : Params} (h : r.params = .ok params)
    (filter : OpenFilter) : ∃ params', ({ r with filter } : Request).params = .ok params' := by
  unfold Request.params at h ⊢
  cases hfields : commaJoined r.fields with
  | error fault =>
      rw [hfields] at h
      exact absurd h (by simp [bind, Except.bind])
  | ok fields =>
      cases hsort : commaJoined r.sort with
      | error fault =>
          rw [hfields, hsort] at h
          exact absurd h (by simp [bind, Except.bind])
      | ok sort => exact ⟨_, rfl⟩

/-- The filter of a prepared request is that of the request. -/
lemma filter_of_prepare {r : Request} {params : Params} (h : r.params = .ok params) :
    ∃ prepared, r.prepare.result = .ok prepared ∧ prepared.filter = r.filter := by
  refine ⟨⟨.ofTexts params, r.filter.query, .ofTexts r.filter.values, r.recordType⟩, ?_, ?_⟩
  · simp only [prepare, assemble, h]
    rfl
  · simp only [Prepared.filter, Entries.textEntries_ofTexts]

/-- A script without a fault makes the new filter. -/
lemma apply_filter_of_ok (r : Request) {script : Script} (h : (script.perform {}).fault = none) :
    r.apply (.filter script) = .ok { r with filter := (script.perform {}).openFilter } := by
  simp only [apply, h]
  rfl

end Request

open Placeholders

/-- **Filling in is writing at once**: each of several filters that share their placeholders closes,
over the values of all of them, to the text that its calls write with the literal of each value in
place of the placeholder. So does the filter of a request, over its own values. -/
theorem close_eq_direct :
    (∀ (calls : List (Text × Value)) (scripts : List Script), Composable calls scripts →
      ∀ run ∈ (ofCalls calls).performAll scripts, ∃ t, run.2.direct = .ok t ∧
        ({ query := (run.2.finish run.1).query
           values := ((ofCalls calls).afterAll scripts).values } : OpenFilter).close true
          = ⟨.ok t, []⟩)
      ∧ ∀ (r : Request) (script : Script), Composable [] [script] →
        (∃ params, r.params = .ok params) →
          ∃ t r' prepared, script.direct = .ok t ∧ r.apply (.filter script) = .ok r'
            ∧ r'.prepare.result = .ok prepared ∧ prepared.filter.close true = ⟨.ok t, []⟩ := by
  refine ⟨fun calls scripts h run hrun => ?_, fun r script h hparams => ?_⟩
  · obtain ⟨t, ht, hclose⟩ := h.close hrun
    exact ⟨t, ht, hclose true⟩
  · have hrun : (({} : Session), script) ∈ (ofCalls []).performAll [script] := List.mem_cons_self
    obtain ⟨t, ht, hclose⟩ := h.close hrun
    have hsucceeds : script.Succeeds [.full] { placeholders := ofCalls [] } := h.succeeds _ hrun
    obtain ⟨hfault, hquery, hplaceholders⟩ := finish_of_succeeds hsucceeds
    obtain ⟨params, hparams⟩ := hparams
    obtain ⟨params', hparams'⟩ := Request.params_ok_of_filter hparams (script.perform {}).openFilter
    obtain ⟨prepared, hprepared, hfilter⟩ := Request.filter_of_prepare hparams'
    refine ⟨t, _, prepared, ht, Request.apply_filter_of_ok r hfault, hprepared, ?_⟩
    have hown : (script.perform {}).openFilter
        = { query := (script.finish {}).query, values := (script.finish {}).placeholders.values } :=
      congrArg₂ OpenFilter.mk hquery.symm (congrArg Placeholders.values hplaceholders.symm)
    rw [hfilter]
    exact hown ▸ hclose true

/-! ### Two scripts over the same placeholders -/

/-- A comparison with a moment, and behind it a group with a list of values. -/
def sampleScript : Script :=
  .call .latest (.compare ⟨false, .greaterThan⟩ (.text ['a']) (.text "@now")) <|
  .call .latest (.combine .and) <|
  .group .latest
    (.call .latest (.isIn (.text ['b']) (.list [.text ['i', '\'', 's'], .int 3])) .done) .done

lemma plain_sampleScript : ∀ f ∈ sampleScript.fragments [.full], f.Plain Fragment.braces := by
  have hfragments : sampleScript.fragments [.full]
      = [.comparison ⟨.text ['a'], ⟨false, .greaterThan⟩, .text "@now"⟩, .verbatim " && ",
          .verbatim ['('], .verbatim ['('],
          .comparison ⟨.text ['b'], ⟨false, .equal⟩, .text ['i', '\'', 's']⟩, .verbatim " || ",
          .comparison ⟨.text ['b'], ⟨false, .equal⟩, .int 3⟩, .verbatim [')'],
          .verbatim [')']] := rfl
  intro f hf
  rw [hfragments] at hf
  simp only [List.mem_cons, List.not_mem_nil, or_false] at hf
  rcases hf with rfl | rfl | rfl | rfl | rfl | rfl | rfl | rfl | rfl <;>
    simp [Fragment.Plain, Fragment.braces]

/-- Fields of one character each are never one another with digits behind. -/
lemma ne_append_of_length_one {keys : List Key}
    (hkeys : ∀ t : Text, .text t ∈ keys → t.length = 1) (f g d : Text) (hf : .text f ∈ keys)
    (hg : .text g ∈ keys) (hd : d ≠ []) : g ≠ f ++ d := by
  intro heq
  have hlength := congrArg List.length heq
  have hpos := List.length_pos_iff.2 hd
  rw [List.length_append, hkeys f hf, hkeys g hg] at hlength
  omega

lemma composable_two : Composable [(['a'], .int 7)] [sampleScript, sampleScript] where
  succeeds := by
    intro run hrun
    simp only [performAll, List.mem_cons, List.not_mem_nil, or_false] at hrun
    rcases hrun with rfl | rfl <;> (unfold Script.Succeeds; decide)
  plain := by
    intro script hscript
    obtain rfl : script = sampleScript := by simpa using hscript
    exact plain_sampleScript
  apart := by
    have hkeys : ((ofCalls [(['a'], .int 7)]).afterAll [sampleScript, sampleScript]).counters.keys
        = [.text ['a'], .text ['b']] := rfl
    rw [hkeys]
    exact fun f g d hf hg hd _ => ne_append_of_length_one (by simp) f g d hf hg hd
  literals := by
    have hvalues : ((ofCalls [(['a'], .int 7)]).afterAll [sampleScript, sampleScript]).values
        = [(['a', '1'], .int 7), (['b', '1'], .text ['i', '\'', 's']), (['b', '2'], .int 3),
            (['b', '3'], .text ['i', '\'', 's']), (['b', '4'], .int 3)] := rfl
    rw [hvalues]
    simp only [List.forall_mem_cons, Value.literal]
    exact ⟨⟨_, rfl⟩, ⟨_, rfl⟩, ⟨_, rfl⟩, ⟨_, rfl⟩, ⟨_, rfl⟩, List.forall_mem_nil _⟩

lemma composable_one : Composable [] [sampleScript] where
  succeeds := by
    intro run hrun
    simp only [performAll, List.mem_cons, List.not_mem_nil, or_false] at hrun
    subst hrun
    unfold Script.Succeeds
    decide
  plain := by
    intro script hscript
    obtain rfl : script = sampleScript := by simpa using hscript
    exact plain_sampleScript
  apart := by
    have hkeys : ((ofCalls []).afterAll [sampleScript]).counters.keys = [.text ['b']] := rfl
    rw [hkeys]
    exact fun f g d hf hg hd _ => ne_append_of_length_one (by simp) f g d hf hg hd
  literals := by
    have hvalues : ((ofCalls []).afterAll [sampleScript]).values
        = [(['b', '1'], .text ['i', '\'', 's']), (['b', '2'], .int 3)] := rfl
    rw [hvalues]
    simp only [List.forall_mem_cons, Value.literal]
    exact ⟨⟨_, rfl⟩, ⟨_, rfl⟩, List.forall_mem_nil _⟩

/-- The second of the two filters, and that of a request. -/
theorem close_eq_direct_sample :
    ({ query := "a>@now && ((b={:b3} || b={:b4}))"
       values := ((ofCalls [(['a'], .int 7)]).afterAll [sampleScript, sampleScript]).values } :
        OpenFilter).close true = ⟨.ok "a>@now && ((b='i\\'s' || b=3))", []⟩
      ∧ ∃ r' prepared, ({} : Request).apply (.filter sampleScript) = .ok r'
          ∧ r'.prepare.result = .ok prepared
          ∧ prepared.filter.close true = ⟨.ok "a>@now && ((b='i\\'s' || b=3))", []⟩ := by
  have hdirect : sampleScript.direct = .ok "a>@now && ((b='i\\'s' || b=3))" := rfl
  constructor
  · obtain ⟨t, ht, hclose⟩ := close_eq_direct.1 _ _ composable_two _
      (List.mem_cons_of_mem _ List.mem_cons_self)
    obtain rfl := Except.ok.inj (hdirect.symm.trans ht)
    exact hclose
  · obtain ⟨t, r', prepared, ht, happly, hprepare, hclose⟩ :=
      close_eq_direct.2 {} sampleScript composable_one ⟨_, rfl⟩
    obtain rfl := Except.ok.inj (hdirect.symm.trans ht)
    exact ⟨r', prepared, happly, hprepare, hclose⟩

end RecordQuery
