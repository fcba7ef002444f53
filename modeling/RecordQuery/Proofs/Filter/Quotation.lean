import RecordQuery.Proofs.Filter.Sharing

/-!
Reading the literals of a closed filter back.

* `Filter.literals` is what a reader finds who takes a quote for the start of a literal and the next
  quote without a backslash in front of it for its end.
* `literals_literal_append` and `literals_ne_of_backslash`: such a reader finds the literal of a
  text as it was written, unless the text ends in a backslash, which hides the closing quote.
* `literals_close_iff`: the reader finds just the literals of a filter's values exactly if none of
  the values ends in a backslash.
-/

namespace RecordQuery

namespace Filter

mutual

/-- The literals of a text, from left to right. A literal without an end is none. -/
def literals : Text → List Text
  | [] => []
  | c :: rest => if c = '\'' then literalsFrom ['\''] rest else literals rest
termination_by structural t => t

/-- The literals of a text in the middle of a literal, of which the characters read so far are
given, the last one in front. -/
def literalsFrom (read : Text) : Text → List Text
  | [] => []
  | c :: rest =>
    if c = '\'' ∧ read.head? ≠ some '\\' then (c :: read).reverse :: literals rest
    else literalsFrom (c :: read) rest
termination_by structural t => t

end

lemma literals_append_of_ne {t : Text} (h : ∀ c ∈ t, c ≠ '\'') (rest : Text) :
    literals (t ++ rest) = literals rest := by
  induction t with
  | nil => rfl
  | cons c t ih =>
      rw [List.cons_append, literals, if_neg (h c List.mem_cons_self)]
      exact ih fun x hx => h x (List.mem_cons_of_mem _ hx)

/-- The reader passes over an escaped text. -/
lemma literalsFrom_escapeQuotes_append (read t rest : Text) :
    literalsFrom read (Text.escapeQuotes t ++ rest)
      = literalsFrom ((Text.escapeQuotes t).reverse ++ read) rest := by
  induction t generalizing read with
  | nil => rfl
  | cons c t ih =>
      have hcons : Text.escapeQuotes (c :: t)
          = (if c = '\'' then ['\\', '\''] else [c]) ++ Text.escapeQuotes t := rfl
      rw [hcons]
      by_cases h : c = '\''
      · subst h
        simp [literalsFrom, ih]
      · simp [literalsFrom, h, ih]

/-- The last character of a text is still there when its quotes are escaped. -/
lemma getLast?_escapeQuotes (t : Text) : (Text.escapeQuotes t).getLast? = t.getLast? := by
  rcases List.eq_nil_or_concat t with rfl | ⟨init, last, rfl⟩
  · rfl
  · rw [List.concat_eq_append, Text.escapeQuotes, List.flatMap_append, List.getLast?_append,
      List.getLast?_append]
    by_cases h : last = '\'' <;> simp [h]

/-- At the closing quote of a text's literal, the reader has just read the text's last character. -/
lemma literals_literal (t rest : Text) :
    literals (Text.literal t ++ rest)
      = if t.getLast? = some '\\' then literalsFrom (Text.literal t).reverse rest
        else Text.literal t :: literals rest := by
  have hread : ((Text.escapeQuotes t).reverse ++ ['\'']).head? = some '\\'
      ↔ t.getLast? = some '\\' := by
    rw [List.head?_append, List.head?_reverse, getLast?_escapeQuotes]
    cases t.getLast? <;> simp
  have htext : Text.literal t ++ rest = '\'' :: (Text.escapeQuotes t ++ '\'' :: rest) := by
    simp [Text.literal]
  rw [htext, literals, if_pos rfl, literalsFrom_escapeQuotes_append, literalsFrom]
  by_cases h : t.getLast? = some '\\'
  · rw [if_neg (by simp [hread.2 h]), if_pos h]
    simp [Text.literal]
  · rw [if_pos ⟨rfl, fun hhead => h (hread.1 hhead)⟩, if_neg h]
    simp [Text.literal]

/-- A literal that goes on is longer than what has been read of it. -/
lemma length_lt_of_mem_literalsFrom {read rest first : Text}
    (h : (literalsFrom read rest).head? = some first) : read.length < first.length := by
  induction rest generalizing read with
  | nil => simp [literalsFrom] at h
  | cons c rest ih =>
      rw [literalsFrom] at h
      split at h
      · obtain rfl := Option.some.inj h
        simp
      · have hlt := ih h
        rw [List.length_cons] at hlt
        omega

/-- Unless a text ends in a backslash, its literal is read as it was written. -/
theorem literals_literal_append {t : Text} (h : t.getLast? ≠ some '\\') (rest : Text) :
    literals (Text.literal t ++ rest) = Text.literal t :: literals rest := by
  rw [literals_literal, if_neg h]

/-- If a text ends in a backslash, its literal is not what is read. -/
theorem literals_ne_of_backslash {t : Text} (h : t.getLast? = some '\\') (rest : Text)
    (others : List Text) : literals (Text.literal t ++ rest) ≠ Text.literal t :: others := by
  rw [literals_literal, if_pos h]
  intro heq
  have hlt := length_lt_of_mem_literalsFrom (congrArg List.head? heq)
  rw [List.length_reverse] at hlt
  omega

end Filter

namespace Fragment

/-- The literal that a fragment writes: two quotes for a test for being empty, and the literal of
its value for a comparison that does not name a moment. -/
def literal? : Fragment → Option Text
  | emptiness _ _ => some ['\'', '\'']
  | comparison c => if c.value.moment?.isSome then none else c.value.literal.toOption
  | _ => none

/-- The characters that fields and verbatim text must not hold for the literals to be found. -/
def marks : List Char := ['{', '}', '\'']

lemma Plain.mono {banned fewer : List Char} (hsub : fewer ⊆ banned) {f : Fragment}
    (h : f.Plain banned) : f.Plain fewer := by
  cases f with
  | verbatim t => exact fun c hc hmem => h c hc (hsub hmem)
  | emptiness field negated =>
      obtain ⟨t, ht, hchars⟩ := h
      exact ⟨t, ht, fun c hc hmem => hchars c hc (hsub hmem)⟩
  | comparison c =>
      obtain ⟨t, ht, hchars⟩ := h
      exact ⟨t, ht, fun c hc hmem => hchars c hc (hsub hmem)⟩
  | refusal fault => trivial

lemma ne_of_not_mem_marks {t : Text} (h : ∀ c ∈ t, c ∉ marks) {c : Char} (hc : c ∈ t) :
    c ≠ '\'' := fun heq => h c hc (by simp [heq, marks])

/-- The literal of a text, in whatever form the text is given. -/
lemma literal_of_asText {v : Value} (h : v.asText?.isSome) :
    v.literal = .ok (Text.literal v.display) := by
  cases v <;> first | rfl | exact absurd h (by simp [Value.asText?])

/-- What a fragment writes at once, if its value is a text: text without a quote, or a literal
behind such text. -/
lemma direct_cases {f : Fragment} {t : Text} (hplain : f.Plain marks)
    (hvalue : ∀ entry, f.reserved? = some entry → entry.2.asText?.isSome)
    (hdirect : f.direct = .ok t) :
    ((∀ c ∈ t, c ≠ '\'') ∧ f.literal? = none ∧ f.reserved? = none)
      ∨ ∃ head content, (∀ c ∈ head, c ≠ '\'') ∧ t = head ++ Text.literal content
          ∧ f.literal? = some (Text.literal content)
          ∧ (content.getLast? ≠ some '\\'
            ↔ ∀ entry, f.reserved? = some entry → entry.2.display.getLast? ≠ some '\\') := by
  cases f with
  | verbatim u =>
      obtain rfl := Except.ok.inj hdirect
      exact Or.inl ⟨fun c hc => ne_of_not_mem_marks hplain hc, rfl, rfl⟩
  | emptiness field negated =>
      obtain ⟨u, rfl, hu⟩ := hplain
      have hsign : ∀ c ∈ (if negated then ['!', '='] else ['='] : Text), c ≠ '\'' := by
        cases negated <;> simp
      have htext : emptinessText (.text u) negated
          = (u ++ if negated then ['!', '='] else ['=']) ++ Text.literal [] := by
        cases negated with
        | false => exact (List.append_assoc u ['='] (Text.literal [])).symm
        | true => exact (List.append_assoc u ['!', '='] (Text.literal [])).symm
      obtain rfl := Except.ok.inj hdirect
      refine Or.inr ⟨_, [], fun c hc => ?_, htext, rfl, by simp [reserved?]⟩
      exact (List.mem_append.1 hc).elim (ne_of_not_mem_marks hu) (hsign c)
  | comparison c =>
      obtain ⟨field, operator, value⟩ := c
      obtain ⟨u, rfl, hu⟩ := hplain
      have hhead : ∀ c ∈ u ++ operator.text, c ≠ '\'' := by
        rintro c hc rfl
        rcases List.mem_append.1 hc with hc | hc
        · exact ne_of_not_mem_marks hu hc rfl
        · exact absurd (Operator.mem_signs_of_mem_text hc) (by decide)
      cases hm : value.moment? with
      | some moment =>
          simp only [direct, hm] at hdirect
          obtain rfl := Except.ok.inj hdirect
          refine Or.inl ⟨?_, by simp [literal?, hm], by simp [reserved?, hm]⟩
          rintro c hc rfl
          rcases List.mem_append.1 hc with hc | hc
          · exact hhead _ hc rfl
          · exact absurd (Moment.eq_or_isAlpha_of_mem_text hc) (by decide)
      | none =>
          have hreserved : (comparison ⟨.text u, operator, value⟩).reserved? = some (u, value) := by
            simp only [reserved?, hm]
            rfl
          have hliteral := literal_of_asText (hvalue _ hreserved)
          simp only [direct, hm, hliteral] at hdirect
          obtain rfl := Except.ok.inj hdirect
          refine Or.inr ⟨u ++ operator.text, value.display, hhead, rfl, ?_, ?_⟩
          · simp [literal?, hm, hliteral, Except.toOption]
          · rw [hreserved]
            simp
  | refusal fault => exact absurd hdirect (by simp [direct])

/-- In what fragments write at once, the literals that are read are those that were written exactly
if no value ends in a backslash. -/
theorem literals_directAll_iff {fs : List Fragment} {t : Text}
    (hplain : ∀ f ∈ fs, f.Plain marks)
    (hvalues : ∀ entry ∈ reserved fs, entry.2.asText?.isSome) (hdirect : directAll fs = .ok t) :
    Filter.literals t = fs.filterMap literal?
      ↔ ∀ entry ∈ reserved fs, entry.2.display.getLast? ≠ some '\\' := by
  induction fs generalizing t with
  | nil =>
      obtain rfl := Except.ok.inj hdirect
      simp [Filter.literals, reserved]
  | cons f fs ih =>
      obtain ⟨first, rest, hfirst, hrest, rfl⟩ := eq_append_of_directAll_cons hdirect
      have hplain' : ∀ g ∈ fs, g.Plain marks := fun g hg => hplain g (List.mem_cons_of_mem _ hg)
      have hsub : ∀ entry, f.reserved? = some entry → entry ∈ reserved (f :: fs) :=
        fun entry hentry => List.mem_filterMap.2 ⟨f, List.mem_cons_self, hentry⟩
      have hsub' : ∀ entry ∈ reserved fs, entry ∈ reserved (f :: fs) := fun entry hentry =>
        List.filterMap_subset reserved? (List.subset_cons_self f fs) hentry
      have hih := ih hplain' (fun entry hentry => hvalues entry (hsub' entry hentry)) hrest
      rcases direct_cases (hplain f List.mem_cons_self)
          (fun entry hentry => hvalues entry (hsub entry hentry)) hfirst with
        ⟨hquote, hnone, hreserved⟩ | ⟨head, content, hhead, rfl, hsome, hgood⟩
      · rw [Filter.literals_append_of_ne hquote, List.filterMap_cons_none hnone,
          reserved_cons_of_none hreserved]
        exact hih
      · rw [List.append_assoc, Filter.literals_append_of_ne hhead, List.filterMap_cons_some hsome]
        by_cases hcontent : content.getLast? = some '\\'
        · -- from here on nothing is read as it was written
          have hne := Filter.literals_ne_of_backslash hcontent rest (fs.filterMap literal?)
          refine ⟨fun h => absurd h hne, fun h => ?_⟩
          exact absurd hcontent (hgood.2 fun entry hentry => h entry (hsub entry hentry))
        · rw [Filter.literals_literal_append hcontent, List.cons.injEq, hih]
          refine ⟨fun h entry hentry => ?_, fun h => ⟨rfl, fun entry hentry => ?_⟩⟩
          · obtain ⟨g, hg, hvalue⟩ := List.mem_filterMap.1 hentry
            rcases List.mem_cons.1 hg with rfl | hg
            · exact hgood.1 hcontent entry hvalue
            · exact h.2 entry (List.mem_filterMap.2 ⟨g, hg, hvalue⟩)
          · exact h entry (hsub' entry hentry)

end Fragment

open Placeholders

/-- The literals that a script writes. -/
def Script.literals (script : Script) : List Text :=
  (script.fragments [.full]).filterMap Fragment.literal?

/-- **Literals that are read back**: take a script whose fields are texts, without quotes and braces
in them or in verbatim text, whose values are texts, and whose placeholders have distinct keys. Its
filter closes, whatever was put aside before, and the literals that are read off the closed filter
are those that the script writes exactly if no value ends in a backslash. -/
theorem literals_close_iff {before : List (Text × Value)} {script : Script}
    (hok : (script.perform (ofCalls before)).fault = none)
    (hplain : ∀ f ∈ script.fragments [.full], f.Plain Fragment.marks)
    (hvalues : ∀ entry ∈ script.reserved, entry.2.asText?.isSome)
    (hkeys : (Filter.tokenKeys (script.perform (ofCalls before)).text).Nodup) :
    ∃ t, (∀ strict, (script.perform (ofCalls before)).openFilter.close strict = ⟨.ok t, []⟩)
      ∧ (Filter.literals t = script.literals
        ↔ ∀ entry ∈ script.reserved, entry.2.display.getLast? ≠ some '\\') := by
  have hbraces : ∀ f ∈ script.fragments [.full], f.Plain Fragment.braces := fun f hf =>
    (hplain f hf).mono (by simp [Fragment.braces, Fragment.marks])
  obtain ⟨hplaceholders, htokens⟩ := perform_of_plain hbraces hok
  rw [htokens] at hkeys
  obtain ⟨t, hdirect, hclose⟩ := close_of_plain hbraces hok
    (fun entry hentry => get?_ofCalls_of_nodup hkeys hentry)
    fun entry hentry => ⟨_, Fragment.literal_of_asText (hvalues entry hentry)⟩
  refine ⟨t, fun strict => ?_, Fragment.literals_directAll_iff hplain hvalues hdirect⟩
  rw [Outcome.openFilter, hplaceholders]
  exact hclose strict

/-! ### Texts with quotes and backslashes -/

/-- Two comparisons, the second one joined to the first. -/
def twoTexts (first second : Text) : Script :=
  .call .latest (.compare ⟨false, .equal⟩ (.text ['a']) (.text first)) <|
  .call .latest (.combine .and) <|
  .call .latest (.compare ⟨false, .equal⟩ (.text ['b']) (.text second)) .done

lemma plain_twoTexts (first second : Text) :
    ∀ f ∈ (twoTexts first second).fragments [.full], f.Plain Fragment.marks := by
  have hfragments : (twoTexts first second).fragments [.full]
      = [.comparison ⟨.text ['a'], ⟨false, .equal⟩, .text first⟩, .verbatim " && ",
          .comparison ⟨.text ['b'], ⟨false, .equal⟩, .text second⟩] := rfl
  intro f hf
  rw [hfragments] at hf
  simp only [List.mem_cons, List.not_mem_nil, or_false] at hf
  rcases hf with rfl | rfl | rfl <;> simp [Fragment.Plain, Fragment.marks]

/-- A backslash with a quote behind it is read as it was written, also where another value has been
put aside before. -/
theorem literals_close_two :
    let script := twoTexts ['\\', '\''] ['y']
    ∃ t, (∀ strict, (script.perform (ofCalls [(['b'], .int 7)])).openFilter.close strict
        = ⟨.ok t, []⟩)
      ∧ Filter.literals t = [['\'', '\\', '\\', '\'', '\''], ['\'', 'y', '\'']] := by
  intro script
  have hplain : ∀ f ∈ script.fragments [.full], f.Plain Fragment.marks := plain_twoTexts _ _
  have hok : (script.perform (ofCalls [(['b'], .int 7)])).fault = none := rfl
  have hreserved : script.reserved = [(['a'], .text ['\\', '\'']), (['b'], .text ['y'])] := rfl
  have hkeys : (Filter.tokenKeys (script.perform (ofCalls [(['b'], .int 7)])).text).Nodup := by
    rw [(perform_of_plain (fun f hf => (hplain f hf).mono (by decide)) hok).2, hreserved]
    decide
  have hvalues : ∀ entry ∈ script.reserved, entry.2.asText?.isSome := by
    rw [hreserved]
    simp [Value.asText?]
  have hliterals : script.literals
      = [['\'', '\\', '\\', '\'', '\''], ['\'', 'y', '\'']] := rfl
  have hlast : ∀ entry ∈ script.reserved, entry.2.display.getLast? ≠ some '\\' := by
    rw [hreserved]
    simp only [List.mem_cons, List.not_mem_nil, or_false]
    rintro entry (rfl | rfl) <;> decide
  obtain ⟨t, hclose, hread⟩ := literals_close_iff hok hplain hvalues hkeys
  exact ⟨t, hclose, (hread.2 hlast).trans hliterals⟩

/-- A backslash at the end of the first text hides the quote behind it, so the literal goes on up to
the second text. -/
theorem literals_swallow_rest :
    let script := twoTexts ['x', '\\'] ['y']
    (script.perform {}).openFilter.close true = ⟨.ok "a='x\\' && b='y'", []⟩
      ∧ Filter.literals "a='x\\' && b='y'" = [("'x\\' && b='" : Text)]
      ∧ script.literals = [("'x\\'" : Text), ("'y'" : Text)] := by
  intro script
  refine ⟨?_, rfl, rfl⟩
  have hplain : ∀ f ∈ script.fragments [.full], f.Plain Fragment.braces :=
    fun f hf => (plain_twoTexts _ _ f hf).mono (by decide)
  have hreserved : script.reserved = [(['a'], .text ['x', '\\']), (['b'], .text ['y'])] := rfl
  have hdirect : script.direct = .ok "a='x\\' && b='y'" := rfl
  have hok : (script.perform (ofCalls [])).fault = none := rfl
  have hvalues : ∀ entry ∈ entriesAfter [] script.reserved,
      (script.perform {}).placeholders.values.get? entry.1 = some entry.2 := by
    have hentries : entriesAfter [] script.reserved
        = [(['a', '1'], .text ['x', '\\']), (['b', '1'], .text ['y'])] := rfl
    rw [hentries]
    simp only [List.mem_cons, List.not_mem_nil, or_false]
    rintro entry (rfl | rfl) <;> rfl
  have hliterals : ∀ entry ∈ script.reserved, ∃ t, entry.2.literal = .ok t := by
    rw [hreserved]
    simp [Value.literal]
  obtain ⟨t, ht, hclose⟩ := close_of_plain hplain hok hvalues hliterals
  obtain rfl := Except.ok.inj (hdirect.symm.trans ht)
  exact hclose true

end RecordQuery
