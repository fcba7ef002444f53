import RecordQuery.Proofs.Filter.Chain
import RecordQuery.Proofs.Filter.Coverage
import RecordQuery.Proofs.Request.Assembly

/-!
Where a chain of calls leaves a combinator with nothing behind it.

* `Script.IsLinked` holds of a script each of whose calls is made on an object of the role that the
  last one returned. `Script.dangles` says that its last call is a combinator, and `Script.bodies`
  lists the bodies of its groups.
* `Outcome.Lays` relates what a call writes to the word in front of it: it writes words that go on
  from there (`Word.Laid`), and the last of them is known. `Script.IsLinked.lays_run` proves it of
  linked scripts, by induction on the script.
* `Request.filter_dangles_iff`: the filter of a linked script ends in a combinator exactly if the
  script does, and has one in front of a closing parenthesis exactly if the body of some group ends
  in one. Nowhere else is a term missing, and no two terms stand side by side.
-/

namespace RecordQuery

/-! ### Calls that are linked -/

/-- The call names its fields, and writes no text that it is given as it is. -/
structure Call.Named (c : Call) : Prop where
  fields : ∀ field ∈ c.fields, field.IsFieldName
  not_verbatim : ∀ raw, c ≠ .verbatim raw

namespace Script

/-- Each call is made on an object of the role that the last one returned, in the bodies of groups
as well. -/
def IsLinked : Script → List Role → Prop
  | done, _ => True
  | call on c rest, objects =>
    on.role objects = Handle.latest.role objects ∧ c.Named ∧ rest.IsLinked (c.nextRole :: objects)
  | group on body rest, objects =>
    on.role objects = Handle.latest.role objects ∧ body.IsLinked [.full]
      ∧ rest.IsLinked (.restricted :: objects)

/-- A combinator is the last call. One that is there already counts as long as there is no call. -/
def danglesFrom : Script → Bool → Bool
  | done, pending => pending
  | call _ c rest, _ => rest.danglesFrom (c.nextRole = .full)
  | group _ _ rest, _ => rest.danglesFrom false

/-- The last of the script's own calls is a combinator. -/
def dangles (script : Script) : Bool := script.danglesFrom false

/-- The bodies of the groups of a script, those in the bodies as well. -/
def bodies : Script → List Script
  | done => []
  | call _ _ rest => rest.bodies
  | group _ body rest => body :: body.bodies ++ rest.bodies

end Script

/-! ### Words behind a word -/

namespace Word

/-- Words behind a given one, of which the last one is known: terms and combinators alternate, and
a condition says when no combinator stands in front of a closing parenthesis. -/
structure Laid (before : Word) (words : List Word) (settled : Prop) (after : Word) : Prop where
  plain : ∀ w ∈ words, w.Plain
  alternate : (before :: words).IsChain Alternate
  settled_iff : (before :: words).IsChain Settled ↔ settled
  getLast? : (before :: words).getLast? = some after

/-- Words behind others are chained from the last of these on. -/
lemma isChain_append_iff {R : Word → Word → Prop} {before after : Word} {words more : List Word}
    (h : (before :: words).getLast? = some after) :
    (before :: (words ++ more)).IsChain R
      ↔ (before :: words).IsChain R ∧ (after :: more).IsChain R := by
  obtain ⟨init, hinit⟩ := List.getLast?_eq_some_iff.1 h
  have hsplit : before :: (words ++ more) = init ++ after :: more := by
    rw [← List.cons_append, hinit]
    simp
  rw [hsplit, hinit, List.isChain_split]

namespace Laid

variable {before middle after w : Word} {words more : List Word} {settled settled' : Prop}

lemma nil (before : Word) : Laid before [] True before :=
  ⟨nofun, List.isChain_singleton _, iff_of_true (List.isChain_singleton _) trivial, rfl⟩

lemma single (hplain : w.Plain) (h : before.Alternate w) :
    Laid before [w] (before.Settled w) w :=
  ⟨List.forall_mem_singleton.2 hplain, List.isChain_pair.2 h, List.isChain_pair, rfl⟩

lemma append (h : Laid before words settled middle) (hmore : Laid middle more settled' after) :
    Laid before (words ++ more) (settled ∧ settled') after := by
  refine ⟨List.forall_mem_append.2 ⟨h.plain, hmore.plain⟩,
    (isChain_append_iff h.getLast?).2 ⟨h.alternate, hmore.alternate⟩,
    (isChain_append_iff h.getLast?).trans (and_congr h.settled_iff hmore.settled_iff), ?_⟩
  obtain ⟨init, hinit⟩ := List.getLast?_eq_some_iff.1 h.getLast?
  rw [← List.cons_append, hinit, List.append_assoc, List.singleton_append,
    List.getLast?_append_of_ne_nil _ (List.cons_ne_nil _ _)]
  exact hmore.getLast?

lemma congr (h : Laid before words settled after) (hiff : settled ↔ settled') :
    Laid before words settled' after :=
  { h with settled_iff := h.settled_iff.trans hiff }

/-- A word with which a term begins goes on from any that ends none. -/
lemma term (hplain : w.Plain) (hbegins : w.beginsTerm = true) (hbefore : before.endsTerm = false) :
    Laid before [w] True w := by
  refine (single hplain ⟨fun _ => hbefore, fun hcombinator => ?_⟩).congr (iff_true_intro ?_)
  · cases w with
    | combinator c => cases hbegins
    | _ => cases hcombinator
  · rintro ⟨-, rfl⟩
    cases hbegins

/-- A combinator goes on from the end of a term. -/
lemma combinator (c : Combinator) (hbefore : before.endsTerm = true) :
    Laid before [.combinator c] True (.combinator c) :=
  (single (w := .combinator c) trivial ⟨nofun, fun _ => hbefore⟩).congr (iff_true_intro nofun)

/-- A closing parenthesis goes on from any word. -/
lemma closing (before : Word) : Laid before [.closing] (before.isCombinator = false) .closing :=
  (single (w := .closing) trivial ⟨nofun, nofun⟩).congr (by simp [Settled])

/-- The word in front does not matter to where words are settled, if it is a parenthesis that
opens. -/
lemma isChain_settled_iff (h : Laid .opening words settled after) :
    words.IsChain Settled ↔ settled := by
  refine Iff.trans ?_ h.settled_iff
  cases words with
  | nil => exact iff_of_true .nil (List.isChain_singleton _)
  | cons w words => exact (List.isChain_cons_cons.trans (and_iff_right nofun)).symm

/-- Words end in a combinator exactly if the last word is one, as no opening parenthesis is. -/
lemma getLast?_isCombinator_iff (h : Laid .opening words settled after) :
    (∃ w ∈ words.getLast?, w.isCombinator = true) ↔ after.isCombinator = true := by
  have hlast := h.getLast?
  cases words with
  | nil =>
      obtain rfl := Option.some.inj hlast
      simp [isCombinator]
  | cons w words =>
      rw [List.getLast?_cons_cons] at hlast
      simp [hlast]

end Laid

end Word

/-! ### What is written behind a word -/

/-- The outcome has no fault, and its text consists of words that go on from a given one and end
with another. -/
def Outcome.Lays (o : Outcome) (before : Word) (settled : Prop) (after : Word) : Prop :=
  ∃ words p, o = .wrote (Word.texts words) p ∧ Word.Laid before words settled after

namespace Outcome.Lays

variable {o : Outcome} {before middle after : Word} {settled settled' : Prop} {p : Placeholders}

lemma of_laid {w : Word} (h : Word.Laid before [w] settled after) (p : Placeholders) :
    (wrote w.text p).Lays before settled after :=
  ⟨[w], p, by simp, h⟩

/-- What is written first goes on to what is written behind it. -/
lemma andThen {next : Placeholders → Outcome} (h : o.Lays before settled middle)
    (hnext : (next o.placeholders).Lays middle settled' after) :
    (o.andThen next).Lays before (settled ∧ settled') after := by
  obtain ⟨words, p, rfl, hlaid⟩ := h
  obtain ⟨more, p', hmore, hlaid'⟩ := hnext
  refine ⟨words ++ more, p', ?_, hlaid.append hlaid'⟩
  have hwrote : next p = wrote (Word.texts more) p' := hmore
  rw [wrote_andThen, hwrote, Word.texts_append]
  rfl

lemma congr (h : o.Lays before settled after) (hiff : settled ↔ settled') :
    o.Lays before settled' after := by
  obtain ⟨words, p, ho, hlaid⟩ := h
  exact ⟨words, p, ho, hlaid.congr hiff⟩

/-- Words in parentheses go on from any word that ends no term. -/
lemma parentheses {write : Placeholders → Outcome} (hbefore : before.endsTerm = false)
    (h : (write p).Lays .opening settled after) :
    (((wrote ['('] p).andThen write).andThen (wrote [')'])).Lays before
      (settled ∧ after.isCombinator = false) .closing := by
  have hopening : (wrote ['('] p).Lays before True .opening :=
    of_laid (Word.Laid.term (w := .opening) trivial rfl hbefore) p
  have hclosing (p : Placeholders) :
      (wrote [')'] p).Lays after (after.isCombinator = false) .closing :=
    of_laid (Word.Laid.closing after) p
  refine ((hopening.andThen h).andThen (hclosing _)).congr ?_
  rw [true_and]

end Outcome.Lays

namespace Comparison

variable {before : Word}

lemma lays_write {c : Comparison} (h : c.field.IsFieldName) (hbefore : before.endsTerm = false)
    (p : Placeholders) : ∃ l, (c.write p).Lays before True (.leaf l) := by
  obtain ⟨l, p', -, hwrite, hplain⟩ := exists_leaf h p
  exact ⟨l, hwrite ▸ .of_laid (.term hplain rfl hbefore) p'⟩

/-- Comparisons with the combinator in front of each go on from the end of a term. -/
lemma lays_writeRest (combinator : Combinator) {cs : List Comparison}
    (h : ∀ c ∈ cs, c.field.IsFieldName) (hbefore : before.endsTerm = true) (p : Placeholders) :
    ∃ after, after.isCombinator = false ∧ (writeRest combinator cs p).Lays before True after := by
  induction cs generalizing before p with
  | nil => exact ⟨before, Word.isCombinator_eq_false hbefore, [], p, rfl, .nil before⟩
  | cons c cs ih =>
      rw [List.forall_mem_cons] at h
      have hcombinator :
          (Outcome.wrote combinator.text p).Lays before True (.combinator combinator) :=
        .of_laid (.combinator combinator hbefore) p
      obtain ⟨l, hleaf⟩ : ∃ l, (c.write p).Lays (.combinator combinator) True (.leaf l) :=
        lays_write h.1 rfl p
      have hbehind : (Word.leaf l).endsTerm = true := rfl
      obtain ⟨after, hafter, hrest⟩ :=
        ih h.2 hbehind ((Outcome.wrote combinator.text p).andThen c.write).placeholders
      exact ⟨after, hafter, ((hcombinator.andThen hleaf).andThen hrest).congr (by simp)⟩

/-- Comparisons in parentheses make a term, even if there are none. -/
lemma lays_writeAll (combinator : Combinator) {cs : List Comparison}
    (h : ∀ c ∈ cs, c.field.IsFieldName) (hbefore : before.endsTerm = false) (p : Placeholders) :
    (writeAll combinator cs p).Lays before True .closing := by
  have heach : ∃ after, after.isCombinator = false
      ∧ (writeEach combinator cs p).Lays .opening True after := by
    cases cs with
    | nil => exact ⟨.opening, rfl, [], p, rfl, .nil _⟩
    | cons c cs =>
        rw [List.forall_mem_cons] at h
        obtain ⟨l, hleaf⟩ : ∃ l, (c.write p).Lays .opening True (.leaf l) := lays_write h.1 rfl p
        have hbehind : (Word.leaf l).endsTerm = true := rfl
        obtain ⟨after, hafter, hrest⟩ :=
          lays_writeRest combinator h.2 hbehind (c.write p).placeholders
        exact ⟨after, hafter, (hleaf.andThen hrest).congr (by simp)⟩
  obtain ⟨after, hafter, heach⟩ := heach
  exact (Outcome.Lays.parentheses hbefore heach).congr (by simp [hafter])

end Comparison

namespace Call

variable {before : Word} {p : Placeholders}

/-- A test for being empty is a leaf. -/
lemma lays_emptiness {field : Value} (h : field.IsFieldName) (negated : Bool)
    (hbefore : before.endsTerm = false) (p : Placeholders) :
    ∃ l, (Outcome.wroteBehind field (Fragment.emptinessMark negated) p).Lays before True
      (.leaf l) := by
  obtain ⟨name, rfl⟩ := h
  have htail : ∀ c ∈ (Leaf.emptiness name negated).tail, c ∉ Word.layout :=
    List.forall_mem_cons.2 ⟨by decide, List.forall_mem_singleton.2 (by decide)⟩
  have hwrite : Outcome.wroteBehind (.text name.text) (Fragment.emptinessMark negated) p
      = .wrote (Leaf.emptiness name negated).text p :=
    congrArg (Outcome.wrote · p) (emptinessText_eq name negated)
  exact ⟨.emptiness name negated,
    hwrite ▸ .of_laid (.term (Word.plain_leaf htail) rfl hbefore) p⟩

lemma lays_compareItems (combinator : Combinator) {items : Value} {comparison : Value → Comparison}
    (h : ∀ item ∈ items.items?.getD [], (comparison item).field.IsFieldName)
    (hbefore : before.endsTerm = false)
    (hok : (compareItems p combinator items comparison).fault = none) :
    (compareItems p combinator items comparison).Lays before True .closing := by
  rw [compareItems] at hok ⊢
  cases hitems : items.items? with
  | none =>
      rw [hitems] at hok
      cases hok
  | some items' =>
      rw [hitems] at h
      refine Comparison.lays_writeAll combinator (fun c hc => ?_) hbefore p
      obtain ⟨item, hitem, rfl⟩ := List.mem_map.1 hc
      exact h item hitem

/-- A call that makes a term writes one, if it succeeds. -/
lemma lays_term {c : Call} (hrole : c.role? = some .full) (hnamed : c.Named)
    (hbefore : before.endsTerm = false) (hok : (c.perform p).fault = none) :
    ∃ after, after.endsTerm = true ∧ (c.perform p).Lays before True after := by
  obtain ⟨hfields, hverbatim⟩ := hnamed
  have hfield (field : Value) (h : ∀ g ∈ [field], g.IsFieldName) : field.IsFieldName :=
    h field List.mem_cons_self
  cases c with
  | compare op field value =>
      have hname : (⟨field, op, value⟩ : Comparison).field.IsFieldName := hfield field hfields
      obtain ⟨l, hleaf⟩ := Comparison.lays_write hname hbefore p
      exact ⟨_, rfl, hleaf⟩
  | search fields value => exact ⟨_, rfl, lays_compareItems .or hfields hbefore hok⟩
  | isIn field values =>
      exact ⟨_, rfl, lays_compareItems .or (fun _ _ => hfield field hfields) hbefore hok⟩
  | isNotIn field values =>
      exact ⟨_, rfl, lays_compareItems .and (fun _ _ => hfield field hfields) hbefore hok⟩
  | between field low high =>
      have hname := hfield field hfields
      exact ⟨_, rfl, Comparison.lays_writeAll .and (by simpa using hname) hbefore p⟩
  | notBetween field low high =>
      have hname := hfield field hfields
      exact ⟨_, rfl, Comparison.lays_writeAll .or (by simpa using hname) hbefore p⟩
  | isEmpty field =>
      obtain ⟨l, hleaf⟩ := lays_emptiness (hfield field hfields) false hbefore p
      exact ⟨_, rfl, hleaf⟩
  | isNotEmpty field =>
      obtain ⟨l, hleaf⟩ := lays_emptiness (hfield field hfields) true hbefore p
      exact ⟨_, rfl, hleaf⟩
  | verbatim raw => exact absurd rfl (hverbatim raw)
  | combine combinator => simp [role?] at hrole
  | unknown name => simp [role?] at hrole

/-- A call that succeeds on an object of the role at hand leaves a word from which the object that
it returns goes on. -/
lemma lays_performAs {c : Call} (hnamed : c.Named)
    (hok : (c.performAs before.role p).fault = none) :
    ∃ after, after.role = c.nextRole ∧ after.isCombinator = decide (c.nextRole = .full)
      ∧ (c.performAs before.role p).Lays before True after := by
  by_cases hrole : c.role? = some before.role
  · rw [performAs, if_pos hrole] at hok ⊢
    cases hbefore : before.endsTerm with
    | true =>
        rw [Word.role, if_pos hbefore] at hrole
        obtain ⟨combinator, rfl⟩ := eq_combine_of_role? hrole
        exact ⟨.combinator combinator, rfl, rfl, .of_laid (.combinator combinator hbefore) p⟩
    | false =>
        have hfull : c.role? = some .full := by simpa [Word.role, hbefore] using hrole
        obtain ⟨after, hafter, hlays⟩ := lays_term hfull hnamed hbefore hok
        rw [nextRole_of_role? hfull]
        exact ⟨after, if_pos hafter, Word.isCombinator_eq_false hafter, hlays⟩
  · rw [performAs, if_neg hrole] at hok
    cases hok

end Call

/-! ### What a linked script writes -/

/-- **Linked scripts alternate**: behind a word that leaves the role at hand, a linked script that
succeeds writes terms and combinators in turn. It ends with a combinator if its last call is one,
and has one in front of a closing parenthesis if the body of a group ends with one. -/
theorem Script.IsLinked.lays_run {script : Script} {objects : List Role} {before : Word}
    {p : Placeholders} (h : script.IsLinked objects)
    (hrole : Handle.latest.role objects = before.role)
    (hok : (script.run objects p).fault = none) :
    ∃ after, after.isCombinator = script.danglesFrom before.isCombinator
      ∧ (script.run objects p).Lays before (∀ body ∈ script.bodies, body.dangles = false)
        after := by
  induction script generalizing objects before p with
  | done => exact ⟨before, rfl, [], p, rfl, (Word.Laid.nil before).congr (by simp [bodies])⟩
  | call on c rest ih =>
      obtain ⟨hon, hnamed, hrest⟩ := h
      rw [run, hon, hrole] at hok ⊢
      obtain ⟨hfirst, hbehind⟩ := Outcome.fault_andThen_eq_none_iff.1 hok
      obtain ⟨middle, hmiddle, hcombinator, hlays⟩ := Call.lays_performAs hnamed hfirst
      obtain ⟨after, hafter, hmore⟩ := ih hrest hmiddle.symm hbehind
      refine ⟨after, ?_, (hlays.andThen hmore).congr (by rw [true_and, bodies])⟩
      rw [hafter, hcombinator, danglesFrom]
  | group on body rest ihBody ihRest =>
      obtain ⟨hon, hbody, hrest⟩ := h
      rw [run, hon, hrole] at hok ⊢
      cases hbefore : before.endsTerm with
      | true =>
          simp only [Word.role, if_pos hbefore] at hok
          cases hok
      | false =>
          have hfull : before.role = .full := by simp [Word.role, hbefore]
          simp only [hfull] at hok ⊢
          obtain ⟨hgroup, hbehind⟩ := Outcome.fault_andThen_eq_none_iff.1 hok
          obtain ⟨hinner, -⟩ := Outcome.fault_andThen_eq_none_iff.1 hgroup
          -- the body goes on from the parenthesis in front of it, the rest from the one behind it
          have hstart : Handle.latest.role [.full] = Word.opening.role := rfl
          have hend : Handle.latest.role (.restricted :: objects) = Word.closing.role := rfl
          obtain ⟨last, hlast, hlays⟩ := ihBody hbody hstart hinner
          obtain ⟨after, hafter, hmore⟩ := ihRest hrest hend hbehind
          refine ⟨after, hafter, ((Outcome.Lays.parentheses hbefore hlays).andThen hmore).congr ?_⟩
          rw [hlast, bodies, List.forall_mem_append, List.forall_mem_cons]
          exact and_congr_left fun _ => and_comm

namespace Request

variable {r r' : Request} {params : Params}

/-- The filter among the parameters is the text of the request's filter. -/
lemma eq_of_get?_filter (h : r.params = .ok params) {value : Value}
    (hfilter : params.get? "filter" = some value) : value = .text r.filter.query := by
  have hne : r.filter.query ≠ [] := by
    have hmem : ("filter" : Text) ∈ params.keys := Table.isSome_get?_iff.1 (hfilter ▸ rfl)
    simpa [has] using (name_mem_keys_iff h .filter).1 hmem
  obtain ⟨fields, sort, rfl⟩ := exists_eq_of_params h
  rw [param, decide_eq_true hne] at hfilter
  exact (Option.some.inj hfilter).symm

lemma of_apply_filter {script : Script} (h : r.apply (.filter script) = .ok r') :
    (script.perform {}).fault = none ∧ r'.filter.query = (script.perform {}).text := by
  rw [apply] at h
  cases hfault : (script.perform {}).fault with
  | some fault => simp [hfault] at h
  | none =>
      simp only [hfault] at h
      obtain rfl := Except.ok.inj h
      exact ⟨rfl, rfl⟩

/-- **Combinators dangle where a script leaves them**: the filter that a linked script gives to a
request ends in a combinator exactly if the last call of the script is one, and has one in front of
a closing parenthesis exactly if the last call in the body of some group is one. No combinator stands
behind an opening parenthesis or behind another combinator. The filter is cut into words in one way
only, and then no two terms stand side by side. -/
theorem filter_dangles_iff {script : Script} {t : Text} (hlinked : script.IsLinked [.full])
    (happly : r.apply (.filter script) = .ok r') (hparams : r'.params = .ok params)
    (hfilter : params.get? "filter" = some (.text t)) :
    ((∃ c : Combinator, c.text <:+ t) ↔ script.dangles = true)
      ∧ ((∃ c : Combinator, c.text ++ [')'] <:+: t)
        ↔ ∃ body ∈ script.bodies, body.dangles = true)
      ∧ (∀ c : Combinator, ¬ '(' :: c.text <:+: t)
      ∧ (∀ c d : Combinator, ¬c.text ++ d.text <:+: t)
      ∧ ∃ words : List Word, t = Word.texts words ∧ words.IsChain Word.Apart
        ∧ ∀ other, Word.texts other = t → other = words := by
  obtain ⟨hok, hquery⟩ := of_apply_filter happly
  obtain rfl : t = r'.filter.query := Value.text.inj (eq_of_get?_filter hparams hfilter)
  -- a script on a new builder writes as it would behind an opening parenthesis
  have hstart : Handle.latest.role [.full] = Word.opening.role := rfl
  obtain ⟨after, hafter, words, p, hwrote, hlaid⟩ := hlinked.lays_run hstart hok
  have htext : r'.filter.query = Word.texts words := by
    rw [hquery, Script.perform, hwrote]
    rfl
  have halternate : words.IsChain Word.Alternate := hlaid.alternate.tail
  have hapart : words.IsChain Word.Apart := halternate.imp fun _ _ => Word.Alternate.apart
  have hbodies : (¬words.IsChain Word.Settled) ↔ ∃ body ∈ script.bodies, body.dangles = true := by
    rw [hlaid.isChain_settled_iff]
    simp
  rw [htext]
  refine ⟨?_, (Word.exists_in_front_of_closing_iff hlaid.plain).trans hbodies,
    Word.not_behind_opening hlaid.plain halternate,
    Word.not_behind_combinator hlaid.plain halternate,
    words, rfl, hapart, fun other hother => Word.eq_of_texts_eq hapart hother⟩
  rw [Word.exists_suffix_iff hlaid.plain, hlaid.getLast?_isCombinator_iff, hafter]
  rfl

/-- A comparison with a combinator behind it. -/
def danglingScript : Script :=
  .call .latest (.compare ⟨false, .equal⟩ (.text ['a']) (.int 1)) <|
  .call .latest (.combine .and) .done

lemma isLinked_danglingScript : danglingScript.IsLinked [.full] := by
  have ha : Value.IsFieldName (.text ['a']) := Value.isFieldName_text rfl
  exact ⟨rfl, ⟨List.forall_mem_singleton.2 ha, nofun⟩, rfl, ⟨nofun, nofun⟩, trivial⟩

/-- Nothing keeps a linked script from ending with a combinator, and then its filter does so too. -/
theorem filter_danglingScript :
    danglingScript.IsLinked [.full]
      ∧ ∃ r params, ({} : Request).apply (.filter danglingScript) = .ok r ∧ r.params = .ok params
        ∧ params.get? "filter" = some (.text "a={:a1} && ")
        ∧ Combinator.and.text <:+ ("a={:a1} && " : Text) :=
  ⟨isLinked_danglingScript, _, _, rfl, rfl, rfl, by decide⟩

/-- A group around the comparison with the combinator, and behind it a list of no comparisons. -/
def groupedScript : Script :=
  .group .latest danglingScript <|
  .call .latest (.combine .or) <|
  .call .latest (.isIn (.text ['b']) (.list [])) .done

/-- The combinator at the end of the group stands in front of the closing parenthesis, and there is
no other that misses a term. -/
theorem filter_groupedScript :
    groupedScript.IsLinked [.full]
      ∧ (∃ r params, ({} : Request).apply (.filter groupedScript) = .ok r ∧ r.params = .ok params
        ∧ params.get? "filter" = some (.text "(a={:a1} && ) || ()"))
      ∧ (∃ c : Combinator, c.text ++ [')'] <:+: ("(a={:a1} && ) || ()" : Text))
      ∧ (¬∃ c : Combinator, c.text <:+ ("(a={:a1} && ) || ()" : Text))
      ∧ ∃ words : List Word, ("(a={:a1} && ) || ()" : Text) = Word.texts words
        ∧ words.IsChain Word.Apart := by
  have hb : Value.IsFieldName (.text ['b']) := Value.isFieldName_text rfl
  have hlinked : groupedScript.IsLinked [.full] :=
    ⟨rfl, isLinked_danglingScript, rfl, ⟨nofun, nofun⟩, rfl,
      ⟨List.forall_mem_singleton.2 hb, nofun⟩, trivial⟩
  obtain ⟨r, params, happly, hparams, hfilter⟩ : ∃ r params,
      ({} : Request).apply (.filter groupedScript) = .ok r ∧ r.params = .ok params
        ∧ params.get? "filter" = some (.text "(a={:a1} && ) || ()") := ⟨_, _, rfl, rfl, rfl⟩
  obtain ⟨hend, hclosing, -, -, words, htext, hapart, -⟩ :=
    filter_dangles_iff hlinked happly hparams hfilter
  have hdangles : groupedScript.dangles = false := rfl
  refine ⟨hlinked, ⟨r, params, happly, hparams, hfilter⟩, ?_, ?_, words, htext, hapart⟩
  · exact hclosing.2 ⟨danglingScript, List.mem_cons_self, rfl⟩
  · rw [hend, hdangles]
    simp

end Request

end RecordQuery
