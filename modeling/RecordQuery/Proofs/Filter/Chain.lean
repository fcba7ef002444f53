import RecordQuery.Proofs.Filter.Filling
import RecordQuery.Proofs.Filter.Word

/-!
Chains of calls, and the expressions that they write.

* `Script.expression?` is the tree of the calls of a script: the calls of a chain become the terms
  of an expression, with the combinators between them, and a list of values becomes the expression
  in parentheses that it stands for. Keys are taken from the placeholders as the calls take them.
* `Script.IsChain` holds of a script each of whose calls is made on what the last one returned, and
  which ends with a term.
* `Mirrors` relates a tree that is read off some calls to what the calls write, and
  `Script.IsChain.mirrors` proves it of chains by induction on the script.
* `Script.IsChain.parse?_query`: the filter of a chain is parsed as the tree of its calls, and as
  nothing else.
-/

namespace RecordQuery

/-! ### The tree of calls -/

namespace Comparison

/-- The leaf that a comparison stands for, with a new key if the comparison needs one. -/
def term? (c : Comparison) : StateT Placeholders Option Term := fun p =>
  (FieldName.ofText? c.field.display).bind fun field =>
    match c.value.moment? with
    | some moment => some (.leaf (.compare field c.operator (.moment moment)), p)
    | none =>
      match p.add c.field c.value with
      | (.error _, _) => none
      | (.ok key, p) =>
        (SlotKey.ofText? key).map fun key => (.leaf (.compare field c.operator (.slot key)), p)

/-- The expression of comparisons with a combinator between neighbours. There is none without a
comparison. -/
def expression? (combinator : Combinator) : List Comparison → StateT Placeholders Option Expression
  | [] => failure
  | [c] => .single <$> c.term?
  | c :: d :: cs => do
    let t ← c.term?
    .joined t combinator <$> expression? combinator (d :: cs)

/-- The expression of comparisons, in parentheses. -/
def group? (combinator : Combinator) (cs : List Comparison) : StateT Placeholders Option Term :=
  .group <$> expression? combinator cs

end Comparison

namespace Call

/-- The test of a field for being empty. -/
def emptiness? (field : Value) (negated : Bool) : StateT Placeholders Option Term := fun p =>
  (FieldName.ofText? field.display).map fun field => (.leaf (.emptiness field negated), p)

/-- The comparisons with the items of a value, in parentheses. -/
def overItems? (combinator : Combinator) (items : Value) (comparison : Value → Comparison) :
    StateT Placeholders Option Term :=
  match items.items? with
  | none => failure
  | some items => Comparison.group? combinator (items.map comparison)

/-- The term that a call stands for, if it stands for one. -/
def term? : Call → StateT Placeholders Option Term
  | compare op field value => Comparison.term? ⟨field, op, value⟩
  | search fields value => overItems? .or fields fun field => ⟨field, ⟨false, .like⟩, value⟩
  | isIn field values => overItems? .or values fun value => ⟨field, ⟨false, .equal⟩, value⟩
  | isNotIn field values => overItems? .and values fun value => ⟨field, ⟨false, .notEqual⟩, value⟩
  | between field low high =>
    Comparison.group? .and [⟨field, ⟨false, .greaterThanOrEqual⟩, low⟩,
      ⟨field, ⟨false, .lessThanOrEqual⟩, high⟩]
  | notBetween field low high =>
    Comparison.group? .or [⟨field, ⟨false, .lessThan⟩, low⟩, ⟨field, ⟨false, .greaterThan⟩, high⟩]
  | isEmpty field => emptiness? field false
  | isNotEmpty field => emptiness? field true
  | verbatim _ => failure
  | combine _ => failure
  | unknown _ => failure

end Call

namespace Script

/-- The expression that calls go on to make, given the term behind which no combinator stands yet,
if there is one. -/
def expressionFrom? : Script → Option Term → StateT Placeholders Option Expression
  | done, some t => return .single t
  | done, none => failure
  | call _ c rest, some t =>
    match c with
    | .combine combinator => .joined t combinator <$> rest.expressionFrom? none
    | _ => failure
  | call _ c rest, none => do
    let t ← c.term?
    rest.expressionFrom? (some t)
  | group _ _ _, some _ => failure
  | group _ body rest, none => do
    let t ← .group <$> body.expressionFrom? none
    rest.expressionFrom? (some t)

/-- The tree of the calls of a script, if they make an expression. -/
def expression? (script : Script) : StateT Placeholders Option Expression :=
  script.expressionFrom? none

end Script

/-! ### Chains -/

/-- The value is a text by which a field can be named. -/
def Value.IsFieldName (v : Value) : Prop := ∃ name : FieldName, v = .text name.text

lemma Value.isFieldName_text {t : Text} (h : (FieldName.ofText? t).isSome) :
    IsFieldName (.text t) := by
  obtain ⟨name, hname⟩ := Option.isSome_iff_exists.1 h
  exact ⟨name, congrArg Value.text (FieldName.ofText?_eq_some_iff.1 hname)⟩

/-- The call is not verbatim text, names its fields, and has at least one item where it is made on
several. -/
def Call.IsPlain : Call → Prop
  | compare _ field _ => field.IsFieldName
  | search fields _ =>
    ∃ items, fields.items? = some items ∧ items ≠ [] ∧ ∀ field ∈ items, field.IsFieldName
  | isIn field values => field.IsFieldName ∧ ∃ items, values.items? = some items ∧ items ≠ []
  | isNotIn field values => field.IsFieldName ∧ ∃ items, values.items? = some items ∧ items ≠ []
  | between field _ _ => field.IsFieldName
  | notBetween field _ _ => field.IsFieldName
  | isEmpty field => field.IsFieldName
  | isNotEmpty field => field.IsFieldName
  | verbatim _ => False
  | combine _ => True
  | unknown _ => True

/-- Each call is made on an object of the role that the last one returned, that role has it, and a
term comes last. The same holds of the bodies of groups, each from its own beginning. -/
def Script.IsChain : Script → List Role → Prop
  | done, objects => Handle.latest.role objects = .restricted
  | call on c rest, objects =>
    on.role objects = Handle.latest.role objects ∧ c.role? = some (on.role objects) ∧ c.IsPlain
      ∧ rest.IsChain (c.nextRole :: objects)
  | group on body rest, objects =>
    on.role objects = Handle.latest.role objects ∧ on.role objects = .full ∧ body.IsChain [.full]
      ∧ rest.IsChain (.restricted :: objects)

/-! ### What is read and what is written -/

/-- A tree can be read off some calls, whatever the placeholders, and the calls write its text and
leave the placeholders as the reading does. -/
def Mirrors {α : Type} (text : α → Text) (read : StateT Placeholders Option α)
    (write : Placeholders → Outcome) : Prop :=
  ∀ p, ∃ x p', read p = some (x, p') ∧ write p = .wrote (text x) p'

namespace Mirrors

variable {α β : Type} {text : α → Text} {text' : β → Text} {read : StateT Placeholders Option α}
  {write write' rest : Placeholders → Outcome}

/-- What is read first goes on to what is read behind it. -/
lemma bind (h : Mirrors text read write) {next : α → StateT Placeholders Option β}
    (hwrite : write' = fun p => (write p).andThen rest)
    (hnext : ∀ x, Mirrors text' (next x) fun p => (Outcome.wrote (text x) p).andThen rest) :
    Mirrors text' (read >>= next) write' := by
  intro p
  obtain ⟨x, p', hread, hfirst⟩ := h p
  obtain ⟨y, p'', hread', hrest⟩ := hnext x p'
  refine ⟨y, p'', ?_, ?_⟩
  · have hbind : (read >>= next) p = (read p).bind fun (x, p) => next x p := rfl
    rw [hbind, hread]
    exact hread'
  · rw [hwrite]
    simp only [hfirst]
    exact hrest

/-- What is read stands between two texts. -/
lemma around (h : Mirrors text read write) {f : α → β} (head tail : Text)
    (htext : ∀ x, text' (f x) = head ++ text x ++ tail)
    (hwrite : write' = fun p => ((Outcome.wrote head p).andThen write).andThen (.wrote tail)) :
    Mirrors text' (f <$> read) write' := by
  intro p
  obtain ⟨x, p', hread, hinner⟩ := h p
  refine ⟨f x, p', ?_, ?_⟩
  · have hmap : (f <$> read) p = (read p).bind fun (x, p) => some (f x, p) := rfl
    rw [hmap, hread]
    rfl
  · rw [hwrite, htext]
    simp only [Outcome.wrote_andThen, hinner]
    rfl

end Mirrors

/-! ### What a single call writes -/

namespace Comparison

/-- A comparison that names its field writes the leaf that it stands for. -/
lemma exists_leaf {c : Comparison} (h : c.field.IsFieldName) (p : Placeholders) :
    ∃ l p', c.term? p = some (.leaf l, p') ∧ c.write p = .wrote l.text p'
      ∧ (Word.leaf l).Plain := by
  obtain ⟨field, operator, value⟩ := c
  obtain ⟨name, rfl⟩ := h
  have hname : FieldName.ofText? (Value.text name.text).display = some name :=
    FieldName.ofText?_eq_some_iff.2 rfl
  have hlayout : ∀ c ∈ Word.layout, c.isAlpha = false ∧ c.isDigit = false := by
    simp [Word.layout]
  cases hm : value.moment? with
  | some moment =>
      refine ⟨.compare name operator (.moment moment), p, ?_, ?_, Word.plain_leaf fun c hc hmem => ?_⟩
      · simp only [term?, hname, Option.bind_some, hm]
      · simp only [write, hm]
        exact Outcome.wroteBehind_text _ _ _ _
      · rcases Moment.eq_or_isAlpha_of_mem_text hc with rfl | halpha
        · exact absurd hmem (by decide)
        · simp [(hlayout c hmem).1] at halpha
  | none =>
      have hmarks : Word.layout ⊆ fieldMarks ∧ Fragment.braces ⊆ fieldMarks := by decide
      have hbraces : ∀ c ∈ name.text, c ∉ Fragment.braces :=
        fun c hc hbrace => name.not_mem_marks c hc (hmarks.2 hbrace)
      obtain ⟨hne, hbrace⟩ := Fragment.key_ok hbraces (p.nextOrdinal (.text name.text))
      let key : SlotKey := ⟨_, hne, hbrace⟩
      have hkey : SlotKey.ofText? key.text = some key := SlotKey.ofText?_eq_some_iff.2 rfl
      refine ⟨.compare name operator (.slot key), p.addText name.text value, ?_, ?_,
        Word.plain_leaf fun c hc hmem => ?_⟩
      · simp only [term?, hname, Option.bind_some, hm, Placeholders.add_text]
        rw [hkey]
        rfl
      · simp only [write, hm, Placeholders.add_text]
        exact Outcome.wroteBehind_text _ _ _ _
      · have hkeyed : c ∈ '{' :: ':' :: (name.text ++ Text.numeral _) ++ ['}'] := hc
        simp only [List.cons_append, List.mem_cons, List.mem_append, List.not_mem_nil,
          or_false] at hkeyed
        rcases hkeyed with rfl | rfl | (hc | hc) | rfl
        · exact absurd hmem (by decide)
        · exact absurd hmem (by decide)
        · exact name.not_mem_marks c hc (hmarks.1 hmem)
        · have hdigit := Text.isDigit_of_mem_numeral hc
          simp [(hlayout c hmem).2] at hdigit
        · exact absurd hmem (by decide)

/-- A comparison writes its leaf. -/
lemma mirrors_term? {c : Comparison} (h : c.field.IsFieldName) :
    Mirrors Phrase.text c.term? c.write := by
  intro p
  obtain ⟨l, p', hread, hwrite, -⟩ := exists_leaf h p
  exact ⟨.leaf l, p', hread, hwrite⟩

/-- Behind a first comparison, the others are written as they would be by themselves, with a
combinator in front. -/
lemma writeRest_cons (combinator : Combinator) (c : Comparison) (cs : List Comparison) :
    writeRest combinator (c :: cs)
      = fun p => (Outcome.wrote combinator.text p).andThen (writeEach combinator (c :: cs)) := by
  funext p
  rw [writeRest, Outcome.andThen_assoc]
  rfl

/-- Comparisons write the expression that they make. -/
lemma mirrors_expression? (combinator : Combinator) {c : Comparison} {cs : List Comparison}
    (h : ∀ d ∈ c :: cs, d.field.IsFieldName) :
    Mirrors Phrase.text (expression? combinator (c :: cs)) (writeEach combinator (c :: cs)) := by
  induction cs generalizing c with
  | nil =>
      refine (mirrors_term? (h c List.mem_cons_self)).around [] [] (by simp [Phrase.text]) ?_
      funext p
      simp [writeEach, writeRest]
  | cons d cs ih =>
      refine (mirrors_term? (h c List.mem_cons_self)).bind rfl fun t => ?_
      refine (ih fun e he => h e (List.mem_cons_of_mem _ he)).around (t.text ++ combinator.text) []
        (by simp [Phrase.text]) ?_
      funext p
      simp [writeRest_cons]

lemma mirrors_group? (combinator : Combinator) {cs : List Comparison} (hne : cs ≠ [])
    (h : ∀ c ∈ cs, c.field.IsFieldName) :
    Mirrors Phrase.text (group? combinator cs) (writeAll combinator cs) := by
  obtain ⟨c, cs, rfl⟩ := List.exists_cons_of_ne_nil hne
  exact (mirrors_expression? combinator h).around ['('] [')'] (fun _ => rfl) rfl

end Comparison

namespace Call

/-- The test of a field for being empty is a leaf. -/
lemma emptinessText_eq (name : FieldName) (negated : Bool) :
    Fragment.emptinessText (.text name.text) negated = (Leaf.emptiness name negated).text := by
  cases negated with
  | false => exact (List.append_assoc name.text ['='] ['\'', '\'']).symm
  | true => exact (List.append_assoc name.text ['!', '='] ['\'', '\'']).symm

lemma mirrors_emptiness? {field : Value} (h : field.IsFieldName) (negated : Bool) :
    Mirrors Phrase.text (emptiness? field negated)
      (.wroteBehind field (Fragment.emptinessMark negated)) := by
  intro p
  obtain ⟨name, rfl⟩ := h
  have hname : FieldName.ofText? (Value.text name.text).display = some name :=
    FieldName.ofText?_eq_some_iff.2 rfl
  refine ⟨.leaf (.emptiness name negated), p, ?_,
    congrArg (Outcome.wrote · p) (emptinessText_eq name negated)⟩
  rw [emptiness?, hname]
  rfl

lemma mirrors_overItems? (combinator : Combinator) {value : Value} {items : List Value}
    (hitems : value.items? = some items) (hne : items ≠ []) {comparison : Value → Comparison}
    (h : ∀ item ∈ items, (comparison item).field.IsFieldName) :
    Mirrors Phrase.text (overItems? combinator value comparison)
      fun p => compareItems p combinator value comparison := by
  have hread : overItems? combinator value comparison
      = Comparison.group? combinator (items.map comparison) := by
    rw [overItems?, hitems]
  have hwrite : (fun p => compareItems p combinator value comparison)
      = Comparison.writeAll combinator (items.map comparison) := by
    funext p
    rw [compareItems, hitems]
  rw [hread, hwrite]
  refine Comparison.mirrors_group? combinator (by simpa using hne) fun c hc => ?_
  obtain ⟨item, hitem, rfl⟩ := List.mem_map.1 hc
  exact h item hitem

/-- A call that begins or goes on with a term makes one. -/
lemma nextRole_of_role? {c : Call} (h : c.role? = some .full) : c.nextRole = .restricted := by
  cases c <;> first | rfl | simp [role?] at h

lemma eq_combine_of_role? {c : Call} (h : c.role? = some .restricted) :
    ∃ combinator, c = combine combinator := by
  cases c <;> first | exact ⟨_, rfl⟩ | simp [role?] at h

/-- A call that makes a term writes it. -/
theorem mirrors_term? {c : Call} (hrole : c.role? = some .full) (h : c.IsPlain) :
    Mirrors Phrase.text c.term? c.perform := by
  cases c with
  | compare op field value => exact Comparison.mirrors_term? h
  | search fields value =>
      obtain ⟨items, hitems, hne, hnames⟩ := h
      exact mirrors_overItems? .or hitems hne hnames
  | isIn field values =>
      obtain ⟨hname, items, hitems, hne⟩ := h
      exact mirrors_overItems? .or hitems hne fun _ _ => hname
  | isNotIn field values =>
      obtain ⟨hname, items, hitems, hne⟩ := h
      exact mirrors_overItems? .and hitems hne fun _ _ => hname
  | between field low high =>
      have hname : field.IsFieldName := h
      exact Comparison.mirrors_group? .and (by simp) (by simpa using hname)
  | notBetween field low high =>
      have hname : field.IsFieldName := h
      exact Comparison.mirrors_group? .or (by simp) (by simpa using hname)
  | isEmpty field => exact mirrors_emptiness? h false
  | isNotEmpty field => exact mirrors_emptiness? h true
  | verbatim raw => exact h.elim
  | combine combinator => simp [role?] at hrole
  | unknown name => simp [role?] at hrole

end Call

/-! ### What a chain writes -/

namespace Script

/-- The role of the object at hand, given the term behind which no combinator stands yet. -/
def roleBehind : Option Term → Role
  | none => .full
  | some _ => .restricted

/-- The text of the term behind which no combinator stands yet. -/
def pendingText : Option Term → Text
  | none => []
  | some t => t.text

/-- **Chains write their trees**: behind the term that stands there already, a chain writes the rest
of the expression that its calls make. -/
theorem IsChain.mirrors {script : Script} {objects : List Role} {pending : Option Term}
    (h : script.IsChain objects) (hrole : Handle.latest.role objects = roleBehind pending) :
    Mirrors Phrase.text (script.expressionFrom? pending)
      fun p => (Outcome.wrote (pendingText pending) p).andThen (script.run objects) := by
  induction script generalizing objects pending with
  | done =>
      cases pending with
      | none => exact absurd (hrole.symm.trans h) (by simp [roleBehind])
      | some t => exact fun p => ⟨.single t, p, rfl, Outcome.andThen_wrote_nil _⟩
  | call on c rest ih =>
      obtain ⟨hon, hcall, hplain, hrest⟩ := h
      have hrun : (call on c rest).run objects
          = fun p => (c.perform p).andThen (rest.run (c.nextRole :: objects)) := by
        funext p
        rw [run, Call.performAs, if_pos hcall]
      rw [hon, hrole] at hcall
      rw [hrun]
      cases pending with
      | none =>
          have hnext : c.nextRole = .restricted := Call.nextRole_of_role? hcall
          have hwrite : (fun p => (Outcome.wrote (pendingText none) p).andThen
                fun p => (c.perform p).andThen (rest.run (c.nextRole :: objects)))
              = fun p => (c.perform p).andThen (rest.run (c.nextRole :: objects)) := rfl
          rw [hwrite]
          exact (Call.mirrors_term? hcall hplain).bind rfl fun t => ih hrest (hnext ▸ rfl)
      | some t =>
          obtain ⟨combinator, rfl⟩ := Call.eq_combine_of_role? hcall
          refine (ih hrest rfl).around (t.text ++ combinator.text) [] (by simp [Phrase.text]) ?_
          funext p
          simp [pendingText, Call.perform]
  | group on body rest ihBody ihRest =>
      obtain ⟨hon, hcall, hbody, hrest⟩ := h
      cases pending with
      | none =>
          have hinner : Mirrors Phrase.text (body.expressionFrom? none) (body.run [.full]) :=
            ihBody hbody rfl
          have hterm : Mirrors Phrase.text (.group <$> body.expressionFrom? none)
              fun p => ((Outcome.wrote ['('] p).andThen (body.run [.full])).andThen
                (.wrote [')']) :=
            hinner.around ['('] [')'] (fun _ => rfl) rfl
          have hwrite : (fun p => (Outcome.wrote (pendingText none) p).andThen
                ((group on body rest).run objects))
              = fun p => (((Outcome.wrote ['('] p).andThen (body.run [.full])).andThen
                  (.wrote [')'])).andThen (rest.run (.restricted :: objects)) := by
            funext p
            rw [pendingText, Outcome.wrote_nil_andThen, run, hcall]
          rw [hwrite]
          exact hterm.bind rfl fun t => ihRest hrest rfl
      | some t =>
          rw [hon, hrole] at hcall
          exact absurd hcall (by simp [roleBehind])

/-- **Chains can be read back**: whatever was put aside before, the calls of a chain succeed and
make a tree, and the filter that they leave is the text of that tree. It is parsed as that tree, and
it is the text of no other expression. -/
theorem IsChain.parse?_query {script : Script} (h : script.IsChain [.full]) (p : Placeholders) :
    ∃ e p', script.expression? p = some (e, p') ∧ script.perform p = .wrote e.text p'
      ∧ script.finish { placeholders := p } = ⟨e.text, p'⟩ ∧ Phrase.parse? e.text = some e
      ∧ ∀ other : Expression, other.text = e.text → other = e := by
  have hmirrors : Mirrors Phrase.text script.expression? script.perform := h.mirrors rfl
  obtain ⟨e, p', hread, hperform⟩ := hmirrors p
  have hfault : (script.perform p).fault = none := by
    rw [hperform]
    rfl
  refine ⟨e, p', hread, hperform, ?_, Phrase.parse?_eq_some_iff.2 rfl,
    fun other htext => Phrase.text_injective htext⟩
  have hfinish : script.finish { placeholders := p }
      = ({ placeholders := p } : Session).after (script.perform p) :=
    finishFrom_eq_after hfault
  rw [hfinish, hperform]
  rfl

/-- A moment, and behind it a group with a test for being empty and a search. -/
def sampleChain : Script :=
  .call .latest (.compare ⟨true, .notEqual⟩ (.text ['a']) (.text "@month")) <|
  .call .latest (.combine .or) <|
  .group .latest
    (.call .latest (.isNotEmpty (.text ['b'])) <|
      .call .latest (.combine .and) <|
      .call .latest (.search (.list [.text ['a'], .text ['c']]) (.int 3)) .done)
    .done

lemma isChain_sampleChain : sampleChain.IsChain [.full] := by
  have ha : Value.IsFieldName (.text ['a']) := Value.isFieldName_text rfl
  have hb : Value.IsFieldName (.text ['b']) := Value.isFieldName_text rfl
  have hc : Value.IsFieldName (.text ['c']) := Value.isFieldName_text rfl
  have hsearch : (Call.search (.list [.text ['a'], .text ['c']]) (.int 3)).IsPlain :=
    ⟨_, rfl, List.cons_ne_nil _ _, List.forall_mem_cons.2 ⟨ha, List.forall_mem_singleton.2 hc⟩⟩
  exact ⟨rfl, rfl, ha, rfl, rfl, trivial, rfl, rfl,
    ⟨rfl, rfl, hb, rfl, rfl, trivial, rfl, rfl, hsearch, rfl⟩, rfl⟩

/-- The filter that the sample leaves is parsed as the tree of its calls. -/
theorem parse?_sampleChain :
    ∃ e, (sampleChain.expression? {}).map Prod.fst = some e
      ∧ Phrase.parse? "a?!=@month || (b!='' && (a~{:a1} || c~{:c1}))" = some e
      ∧ ∀ other : Expression,
        other.text = "a?!=@month || (b!='' && (a~{:a1} || c~{:c1}))" → other = e := by
  obtain ⟨e, p', hread, hperform, -, hparse, honly⟩ := IsChain.parse?_query isChain_sampleChain {}
  have htext : e.text = "a?!=@month || (b!='' && (a~{:a1} || c~{:c1}))" := by
    have hquery : (sampleChain.perform {}).text
        = "a?!=@month || (b!='' && (a~{:a1} || c~{:c1}))" := rfl
    rw [hperform] at hquery
    exact hquery
  rw [htext] at hparse honly
  exact ⟨e, by rw [hread]; rfl, hparse, honly⟩

end Script

end RecordQuery
