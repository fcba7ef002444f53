import Mathlib.Data.List.Chain
import Mathlib.Data.List.TakeWhile
import RecordQuery.Proofs.Filter.Expression

/-!
The words of which the text of a filter consists.

* A `Word` is a parenthesis, a combinator or a leaf, and `Word.texts` writes words one after another.
  `Word.Apart`, `Word.Alternate` and `Word.Settled` say which words may be neighbours: no two terms,
  terms and combinators in turn, and no combinator in front of a closing parenthesis.
* `Word.eq_of_texts_eq`: if no two terms are neighbours, a text is cut into words in one way only. A
  leaf is told from what follows it, since a moment's letters would otherwise run into the name of a
  field (`Leaf.head?_of_moment`).
* `Word.exists_suffix_iff` and the lemmas behind it find combinators at the end of a text and next to
  parentheses by looking at the words, if no leaf holds a character of the layout (`Word.Plain`).
-/

namespace RecordQuery

/-- What the text of a filter is put together from. -/
inductive Word where
  | opening
  | closing
  | combinator (c : Combinator)
  | leaf (l : Leaf)

namespace Word

/-- The word as it stands in a filter. -/
def text : Word → Text
  | opening => ['(']
  | closing => [')']
  | combinator c => c.text
  | leaf l => l.text

/-- Words as they stand in a filter, one after the other. -/
def texts (words : List Word) : Text := words.flatMap text

/-- A term begins with the word. -/
def beginsTerm : Word → Bool
  | opening | leaf _ => true
  | closing | combinator _ => false

/-- A term ends with the word. -/
def endsTerm : Word → Bool
  | closing | leaf _ => true
  | opening | combinator _ => false

/-- The word is a combinator. -/
def isCombinator : Word → Bool
  | combinator _ => true
  | opening | closing | leaf _ => false

/-- The role of the object at hand when the word has been written. -/
def role (w : Word) : Role := if w.endsTerm then .restricted else .full

/-- Terms do not stand side by side. -/
def Apart (w next : Word) : Prop := ¬(w.endsTerm = true ∧ next.beginsTerm = true)

/-- The words may stand next to each other: terms and combinators alternate. -/
def Alternate (w next : Word) : Prop :=
  (next.beginsTerm → w.endsTerm = false) ∧ (next.isCombinator → w.endsTerm = true)

lemma Alternate.apart {w next : Word} (h : w.Alternate next) : w.Apart next :=
  fun hterms => by simp [h.1 hterms.2] at hterms

/-- The words are no combinator with a closing parenthesis behind it. -/
def Settled (w next : Word) : Prop := ¬(w.isCombinator = true ∧ next = closing)

/-- No term ends with a combinator. -/
lemma isCombinator_eq_false {w : Word} (h : w.endsTerm = true) : w.isCombinator = false := by
  cases w with
  | combinator c => cases h
  | _ => rfl

@[simp]
lemma texts_nil : texts [] = [] := rfl

@[simp]
lemma texts_cons (w : Word) (words : List Word) : texts (w :: words) = w.text ++ texts words := rfl

@[simp]
lemma texts_append (words more : List Word) : texts (words ++ more) = texts words ++ texts more :=
  List.flatMap_append

lemma exists_cons_text (w : Word) : ∃ c t, w.text = c :: t := by
  cases w with
  | opening => exact ⟨'(', [], rfl⟩
  | closing => exact ⟨')', [], rfl⟩
  | combinator c => cases c <;> exact ⟨_, _, rfl⟩
  | leaf l =>
      obtain ⟨c, t, htext, -⟩ := Phrase.exists_cons_text l
      exact ⟨c, t, htext⟩

lemma text_ne_nil (w : Word) : w.text ≠ [] := by
  obtain ⟨c, t, htext⟩ := w.exists_cons_text
  simp [htext]

lemma eq_nil_of_texts {words : List Word} (h : texts words = []) : words = [] := by
  cases words with
  | nil => rfl
  | cons w words => exact absurd (List.append_eq_nil_iff.1 h).1 w.text_ne_nil

/-! ### Cutting a text into words -/

/-- The word may stand behind a leaf, or there is no word. -/
lemma head?_texts {l : Leaf} {words : List Word}
    (h : (leaf l :: words).IsChain Apart) :
    ∀ c ∈ (texts words).head?, c = ' ' ∨ c = ')' := by
  cases words with
  | nil => simp
  | cons next words =>
      have hnext : next.beginsTerm ≠ true :=
        fun hnext => (List.isChain_cons_cons.1 h).1 ⟨rfl, hnext⟩
      cases next with
      | opening => exact absurd rfl hnext
      | closing => simp [text]
      | combinator c => cases c <;> simp [text, Combinator.text]
      | leaf l => exact absurd rfl hnext

end Word

namespace Leaf

variable {l l' : Leaf} {rest : Text}

/-- If a text begins with a leaf and ends there, and it begins with a comparison with a moment, then
no letter is behind the moment. -/
lemma head?_of_moment {m : Moment} {field : FieldName} {operator : Operator} {words : List Word}
    (h : l.text ++ rest = (compare field operator (.moment m)).text ++ Word.texts words)
    (hrest : ∀ c ∈ rest.head?, c = ' ' ∨ c = ')') :
    ∀ c ∈ (Word.texts words).head?, c.isAlpha = false := by
  obtain ⟨letters, htext, hletters⟩ := m.eq_cons_text
  have hbehind : (Word.texts words).dropWhile Char.isAlpha = rest := by
    have hletter : ∀ c ∈ rest.head?, c.isAlpha = false := by
      intro c hc
      rcases hrest c hc with rfl | rfl <;> decide
    have hread : readTail? field operator ('@' :: (letters ++ Word.texts words))
        = some (l, rest) := by
      rw [← l.read?_text_append fun _ => hletter, h, read?_text_append_eq, tail, Operand.text,
        htext]
      rfl
    rw [readTail?, List.dropWhile_append_of_pos hletters] at hread
    obtain ⟨m', -, heq⟩ := Option.map_eq_some_iff.1 hread
    exact (Prod.mk.inj heq).2
  cases words with
  | nil => simp
  | cons w words =>
      cases w with
      | opening => simp [Word.text]
      | closing => simp [Word.text]
      | combinator c => cases c <;> simp [Word.text, Combinator.text]
      | leaf next =>
          -- letters behind the moment belong to the field of the next leaf, whose sign follows
          exfalso
          have hmarks : ∀ c ∈ fieldMarks, c.isAlpha = false := by simp [fieldMarks]
          have hfield : ∀ c ∈ (next.text ++ Word.texts words).takeWhile Char.isAlpha,
              decide (c ∉ fieldMarks) = true := by
            intro c hc
            have halpha : c.isAlpha = true := List.mem_takeWhile_imp hc
            exact decide_eq_true fun hmem => by simp [hmarks c hmem] at halpha
          have hstop : ∀ c ∈ rest.head?, decide (c ∉ fieldMarks) = false := by
            intro c hc
            rcases hrest c hc with rfl | rfl <;> decide
          have hdrop := (run_append hfield hstop).2
          have hcut : (next.text ++ Word.texts words).takeWhile Char.isAlpha ++ rest
              = next.text ++ Word.texts words := by
            rw [← hbehind]
            exact List.takeWhile_append_dropWhile
          rw [hcut, (next.run_field _).2] at hdrop
          obtain ⟨sign, signs, hoperator⟩ := List.exists_cons_of_ne_nil next.operator.text_ne_nil
          have hsign : sign ∈ Operator.signs :=
            Operator.mem_signs_of_mem_text (hoperator ▸ List.mem_cons_self)
          have hhead : rest.head? = some sign := by
            rw [← hdrop, hoperator]
            rfl
          rcases hrest sign hhead with rfl | rfl <;> exact absurd hsign (by decide)

/-- A text begins with one leaf only, if none follows. -/
lemma append_injective {words : List Word} (h : l.text ++ rest = l'.text ++ Word.texts words)
    (hrest : ∀ c ∈ rest.head?, c = ' ' ∨ c = ')') : l = l' ∧ rest = Word.texts words := by
  have hletter : ∀ c ∈ rest.head?, c.isAlpha = false := by
    intro c hc
    rcases hrest c hc with rfl | rfl <;> decide
  have hread : read? (l.text ++ rest) = some (l, rest) := l.read?_text_append fun _ => hletter
  have hread' : read? (l'.text ++ Word.texts words) = some (l', Word.texts words) := by
    refine l'.read?_text_append fun hmoment => ?_
    match l', hmoment with
    | compare field operator (.moment m), _ => exact head?_of_moment h hrest
  rw [h, hread'] at hread
  obtain ⟨rfl, rfl⟩ := Prod.mk.inj (Option.some.inj hread)
  exact ⟨rfl, rfl⟩

end Leaf

namespace Word

/-- The mark with which the word begins. A leaf begins with none. -/
def mark? : Word → Option Char
  | opening => some '('
  | closing => some ')'
  | combinator _ => some ' '
  | leaf _ => none

lemma mark?_eq {w : Word} {c : Char} {t : Text} (h : w.text = c :: t) :
    w.mark? = if c ∈ fieldMarks then some c else none := by
  cases w with
  | opening => cases h; rfl
  | closing => cases h; rfl
  | combinator combinator => cases combinator <;> cases h <;> rfl
  | leaf l =>
      obtain ⟨d, name, hname⟩ := List.exists_cons_of_ne_nil l.field.ne_nil
      have hd : d ∉ fieldMarks := l.field.not_mem_marks d (hname ▸ List.mem_cons_self)
      rw [text, Leaf.text, hname] at h
      obtain rfl := (List.cons.inj h).1
      exact (if_neg hd).symm

/-- The first words of a text are of the same sort. -/
lemma mark?_eq_of_append_eq {w w' : Word} {rest rest' : Text}
    (h : w.text ++ rest = w'.text ++ rest') : w.mark? = w'.mark? := by
  obtain ⟨c, t, htext⟩ := w.exists_cons_text
  obtain ⟨c', t', htext'⟩ := w'.exists_cons_text
  rw [htext, htext', List.cons_append, List.cons_append] at h
  rw [mark?_eq htext, mark?_eq htext', (List.cons.inj h).1]

/-- The first word of a text is known if it is no leaf with a term behind it. -/
lemma eq_of_append_eq {w w' : Word} {words words' : List Word}
    (hapart : (w :: words).IsChain Apart) (h : w.text ++ texts words = w'.text ++ texts words') :
    w = w' ∧ texts words = texts words' := by
  have hmark := mark?_eq_of_append_eq h
  cases w with
  | opening =>
      cases w' with
      | opening => exact ⟨rfl, List.append_cancel_left h⟩
      | _ => cases hmark
  | closing =>
      cases w' with
      | closing => exact ⟨rfl, List.append_cancel_left h⟩
      | _ => cases hmark
  | combinator c =>
      cases w' with
      | combinator c' =>
          have hread := congrArg Combinator.read? h
          simp only [text, Combinator.read?_text_append] at hread
          obtain ⟨rfl, hrest⟩ := Prod.mk.inj (Option.some.inj hread)
          exact ⟨rfl, hrest⟩
      | _ => cases hmark
  | leaf l =>
      cases w' with
      | leaf l' =>
          obtain ⟨rfl, hrest⟩ := Leaf.append_injective h (head?_texts hapart)
          exact ⟨rfl, hrest⟩
      | _ => cases hmark

/-- **Words are read in one way only**: a text that is cut into words so that no two terms stand
side by side cannot be cut in another way. -/
theorem eq_of_texts_eq {words words' : List Word} (hapart : words.IsChain Apart)
    (h : texts words' = texts words) : words' = words := by
  induction words generalizing words' with
  | nil => exact eq_nil_of_texts h
  | cons w words ih =>
      cases words' with
      | nil => exact absurd (List.append_eq_nil_iff.1 h.symm).1 w.text_ne_nil
      | cons w' words' =>
          obtain ⟨rfl, hrest⟩ := eq_of_append_eq hapart h.symm
          rw [ih hapart.tail hrest.symm]

/-! ### Neighbouring characters -/

/-- Characters that lay a filter out: no word but parentheses and combinators has one. -/
def layout : List Char := [' ', '(', ')']

/-- The word has no characters of the layout besides its own. -/
def Plain : Word → Prop
  | leaf l => ∀ c ∈ l.text, c ∉ layout
  | opening | closing | combinator _ => True

/-- A leaf has no characters of the layout if what stands behind its operator has none. -/
lemma plain_leaf {l : Leaf} (h : ∀ c ∈ l.tail, c ∉ layout) : (leaf l).Plain := by
  have hmarks : layout ⊆ fieldMarks := by decide
  have hsigns : ∀ c ∈ Operator.signs, c ∉ layout := by simp [Operator.signs, layout]
  intro c hc
  rw [Leaf.text, List.append_assoc, List.mem_append, List.mem_append] at hc
  rcases hc with hc | hc | hc
  · exact fun hlayout => l.field.not_mem_marks c hc (hmarks hlayout)
  · exact hsigns c (Operator.mem_signs_of_mem_text hc)
  · exact h c hc

lemma isCombinator_of_mem {w : Word} (h : w.Plain) (hmem : ' ' ∈ w.text) :
    w.isCombinator = true := by
  cases w with
  | opening => simp [text] at hmem
  | closing => simp [text] at hmem
  | combinator c => rfl
  | leaf l => exact absurd (by decide) (h ' ' hmem)

lemma eq_opening_of_mem {w : Word} (h : w.Plain) (hmem : '(' ∈ w.text) : w = opening := by
  cases w with
  | opening => rfl
  | closing => simp [text] at hmem
  | combinator c => cases c <;> simp [text, Combinator.text] at hmem
  | leaf l => exact absurd (by decide) (h '(' hmem)

lemma eq_closing_of_mem {w : Word} (h : w.Plain) (hmem : ')' ∈ w.text) : w = closing := by
  cases w with
  | opening => simp [text] at hmem
  | closing => rfl
  | combinator c => cases c <;> simp [text, Combinator.text] at hmem
  | leaf l => exact absurd (by decide) (h ')' hmem)

/-- Two characters of the layout are neighbours in no word. -/
lemma isChain_text {w : Word} (h : w.Plain) {x y : Char} (hx : x ∈ layout) (hy : y ∈ layout) :
    w.text.IsChain fun a b => ¬(a = x ∧ b = y) := by
  cases w with
  | opening => exact List.isChain_singleton _
  | closing => exact List.isChain_singleton _
  | combinator c =>
      have hsigns : ∀ z ∈ layout, '&' ≠ z ∧ '|' ≠ z := by simp [layout]
      cases c <;> simp [text, Combinator.text, hsigns x hx, hsigns y hy]
  | leaf l =>
      rw [List.isChain_iff_forall_rel_of_append_cons_cons]
      rintro a b before behind htext ⟨rfl, -⟩
      have hmem : a ∈ l.text := by
        rw [← text, htext]
        simp
      exact h a hmem hx

/-- Characters of the layout that are neighbours in a part of a text are in neighbouring words. -/
lemma isChain_of_part {words : List Word} (h : ∀ w ∈ words, w.Plain) {x y : Char} (hx : x ∈ layout)
    (hy : y ∈ layout) (hwords : words.IsChain fun w next => ¬(x ∈ w.text ∧ y ∈ next.text))
    {part : Text} (hpart : part <:+: texts words) : part.IsChain fun a b => ¬(a = x ∧ b = y) := by
  have hne : [] ∉ words.map text := by
    simp only [List.mem_map, not_exists, not_and]
    exact fun w _ => w.text_ne_nil
  have hchain : (texts words).IsChain fun a b => ¬(a = x ∧ b = y) := by
    rw [texts, List.flatMap_def, List.isChain_flatten hne]
    refine ⟨?_, ?_⟩
    · intro t ht
      obtain ⟨w, hw, rfl⟩ := List.mem_map.1 ht
      exact isChain_text (h w hw) hx hy
    · rw [List.isChain_map]
      refine hwords.imp fun w next hpair a ha b hb => ?_
      rintro ⟨rfl, rfl⟩
      exact hpair ⟨List.mem_of_getLast? ha, List.mem_of_mem_head? hb⟩
  obtain ⟨front, back, htext⟩ := hpart
  rw [← htext] at hchain
  exact hchain.left_of_append.right_of_append

variable {words : List Word}

/-- A text ends in a combinator exactly if its last word is one. -/
lemma exists_suffix_iff (h : ∀ w ∈ words, w.Plain) :
    (∃ c : Combinator, c.text <:+ texts words) ↔ ∃ w ∈ words.getLast?, w.isCombinator = true := by
  constructor
  · rintro ⟨c, front, htexts⟩
    have hlast : (texts words).getLast? = some ' ' := by
      rw [← htexts]
      cases c <;> simp [Combinator.text]
    rcases List.eq_nil_or_concat words with rfl | ⟨init, w, rfl⟩
    · simp at hlast
    · refine ⟨w, by simp, isCombinator_of_mem (h w (by simp)) ?_⟩
      rw [List.concat_eq_append, texts_append, texts_cons, texts_nil, List.append_nil,
        List.getLast?_append_of_ne_nil _ w.text_ne_nil] at hlast
      exact List.mem_of_getLast? hlast
  · rintro ⟨w, hlast, hw⟩
    obtain ⟨init, rfl⟩ := List.getLast?_eq_some_iff.1 hlast
    cases w with
    | combinator c => exact ⟨c, texts init, by simp [text]⟩
    | _ => simp [isCombinator] at hw

/-- A combinator stands in front of a closing parenthesis exactly if the two are neighbouring
words. -/
lemma exists_in_front_of_closing_iff (h : ∀ w ∈ words, w.Plain) :
    (∃ c : Combinator, c.text ++ [')'] <:+: texts words) ↔ ¬words.IsChain Settled := by
  constructor
  · rintro ⟨c, hpart⟩ hsettled
    have hwords : words.IsChain fun w next => ¬(' ' ∈ w.text ∧ ')' ∈ next.text) := by
      refine hsettled.imp_of_mem_imp fun w next hw hnext hpair => ?_
      rintro ⟨hspace, hclosing⟩
      exact hpair ⟨isCombinator_of_mem (h w hw) hspace, eq_closing_of_mem (h next hnext) hclosing⟩
    have hchain := isChain_of_part h (by decide) (by decide) hwords hpart
    cases c <;> simp [Combinator.text] at hchain
  · intro hsettled
    rw [List.isChain_iff_forall_rel_of_append_cons_cons] at hsettled
    simp only [not_forall, Settled, not_not] at hsettled
    obtain ⟨w, next, before, behind, rfl, hw, rfl⟩ := hsettled
    cases w with
    | combinator c => exact ⟨c, texts before, texts behind, by simp [text]⟩
    | _ => simp [isCombinator] at hw

/-- Where terms and combinators alternate, no combinator stands behind an opening parenthesis. -/
lemma not_behind_opening (h : ∀ w ∈ words, w.Plain) (hwords : words.IsChain Alternate)
    (c : Combinator) : ¬ '(' :: c.text <:+: texts words := by
  intro hpart
  have hpairs : words.IsChain fun w next => ¬('(' ∈ w.text ∧ ' ' ∈ next.text) := by
    refine hwords.imp_of_mem_imp fun w next hw hnext hpair => ?_
    rintro ⟨hopening, hspace⟩
    have hterm := hpair.2 (isCombinator_of_mem (h next hnext) hspace)
    rw [eq_opening_of_mem (h w hw) hopening] at hterm
    cases hterm
  have hchain := isChain_of_part h (by decide) (by decide) hpairs hpart
  cases c <;> simp [Combinator.text] at hchain

/-- Where terms and combinators alternate, no combinator stands behind another. -/
lemma not_behind_combinator (h : ∀ w ∈ words, w.Plain) (hwords : words.IsChain Alternate)
    (c d : Combinator) : ¬c.text ++ d.text <:+: texts words := by
  intro hpart
  have hpairs : words.IsChain fun w next => ¬(' ' ∈ w.text ∧ ' ' ∈ next.text) := by
    refine hwords.imp_of_mem_imp fun w next hw hnext hpair => ?_
    rintro ⟨hspace, hspace'⟩
    have hterm := hpair.2 (isCombinator_of_mem (h next hnext) hspace')
    have hw := isCombinator_of_mem (h w hw) hspace
    rw [isCombinator_eq_false hterm] at hw
    cases hw
  have hchain := isChain_of_part h (by decide) (by decide) hpairs hpart
  cases c <;> cases d <;> simp [Combinator.text] at hchain

end Word

end RecordQuery
