import RecordQuery.Proofs.Filter.Operator
import RecordQuery.Proofs.Filter.Scan

/-!
The grammar of filters, and reading a filter by it.

* `Phrase` has one constructor for each rule: an expression is a term, alone or with a combinator
  and an expression behind it, and a term is an expression in parentheses or a `Leaf`. Names of
  fields and keys carry the proof that they can be told from what is around them.
* `Phrase.read?` reads a phrase off the front of a text. `read?_text_append` says that it finds a
  phrase that is there, and `eq_append_of_read?` that it finds nothing else.
* `Phrase.parse?_eq_some_iff`: a text is parsed as an expression exactly if it is the text of that
  expression, so no text is that of two expressions (`Phrase.text_injective`).
-/

namespace RecordQuery

/-! ### Names and keys -/

/-- The characters that a field's name must not hold. -/
def fieldMarks : List Char :=
  [' ', '\'', '(', ')', '{', '}', '=', '!', '<', '>', '~', '?', '&', '|']

/-- A text that names a field: it is not empty, and ends before the first mark. -/
@[ext]
structure FieldName where
  text : Text
  ne_nil : text ≠ []
  not_mem_marks : ∀ c ∈ text, c ∉ fieldMarks

/-- The name that a text is, if it is one. -/
def FieldName.ofText? (t : Text) : Option FieldName :=
  if h : t ≠ [] ∧ t.all (· ∉ fieldMarks) = true then
    some ⟨t, h.1, fun c hc => of_decide_eq_true (List.all_eq_true.1 h.2 c hc)⟩
  else none

lemma FieldName.ofText?_eq_some_iff {t : Text} {name : FieldName} :
    ofText? t = some name ↔ t = name.text := by
  rw [ofText?, Option.dite_none_right_eq_some]
  constructor
  · rintro ⟨h, heq⟩
    exact congrArg text (Option.some.inj heq)
  · rintro rfl
    have hall : name.text.all (· ∉ fieldMarks) = true :=
      List.all_eq_true.2 fun c hc => decide_eq_true (name.not_mem_marks c hc)
    exact ⟨⟨name.ne_nil, hall⟩, rfl⟩

/-- A text that is the key of a token: it is not empty, and holds no closing brace. -/
@[ext]
structure SlotKey where
  text : Text
  ne_nil : text ≠ []
  ne_brace : ∀ c ∈ text, c ≠ '}'

/-- The key that a text is, if it is one. -/
def SlotKey.ofText? (t : Text) : Option SlotKey :=
  if h : t ≠ [] ∧ t.all (· ≠ '}') = true then
    some ⟨t, h.1, fun c hc => of_decide_eq_true (List.all_eq_true.1 h.2 c hc)⟩
  else none

lemma SlotKey.ofText?_eq_some_iff {t : Text} {key : SlotKey} :
    ofText? t = some key ↔ t = key.text := by
  rw [ofText?, Option.dite_none_right_eq_some]
  constructor
  · rintro ⟨h, heq⟩
    exact congrArg text (Option.some.inj heq)
  · rintro rfl
    have hall : key.text.all (· ≠ '}') = true :=
      List.all_eq_true.2 fun c hc => decide_eq_true (key.ne_brace c hc)
    exact ⟨⟨key.ne_nil, hall⟩, rfl⟩

/-! ### Leaves -/

/-- What a field is compared with. -/
inductive Operand where
  | moment (m : Moment)
  /-- The value that is put aside under the key. -/
  | slot (key : SlotKey)

/-- The operand as it stands in a filter. -/
def Operand.text : Operand → Text
  | moment m => m.text
  | slot key => placeholder key.text

/-- A term without parentheses. -/
inductive Leaf where
  | compare (field : FieldName) (operator : Operator) (operand : Operand)
  /-- The field is empty or, if `negated` is set, it is not. -/
  | emptiness (field : FieldName) (negated : Bool)

namespace Leaf

/-- The operator of a test for being empty. -/
def emptinessOperator (negated : Bool) : Operator :=
  if negated then ⟨false, .notEqual⟩ else ⟨false, .equal⟩

/-- The field of the leaf. -/
def field : Leaf → FieldName
  | compare field _ _ => field
  | emptiness field _ => field

/-- The operator of the leaf. -/
def operator : Leaf → Operator
  | compare _ operator _ => operator
  | emptiness _ negated => emptinessOperator negated

/-- What stands behind the operator. -/
def tail : Leaf → Text
  | compare _ _ operand => operand.text
  | emptiness _ _ => ['\'', '\'']

/-- The leaf as it stands in a filter. -/
def text (l : Leaf) : Text := l.field.text ++ l.operator.text ++ l.tail

/-- The leaf is a comparison with a moment, so that a letter behind it would be read with it. -/
def EndsInMoment : Leaf → Prop
  | compare _ _ (.moment _) => True
  | compare _ _ (.slot _) | emptiness _ _ => False

/-- The test for being empty that is made with an operator, if there is one. -/
def emptiness? (field : FieldName) (operator : Operator) : Option Leaf :=
  if operator = emptinessOperator false then some (emptiness field false)
  else if operator = emptinessOperator true then some (emptiness field true)
  else none

/-- The leaf with the given field and operator of which the rest begins a text, and what is behind
it. -/
def readTail? (field : FieldName) (operator : Operator) : Text → Option (Leaf × Text)
  | '\'' :: '\'' :: rest => (emptiness? field operator).map (·, rest)
  | '@' :: rest =>
    (Moment.ofText? ('@' :: rest.takeWhile Char.isAlpha)).map fun m =>
      (compare field operator (.moment m), rest.dropWhile Char.isAlpha)
  | t =>
    (Filter.readToken? t).bind fun (key, rest) =>
      (SlotKey.ofText? key).map fun key => (compare field operator (.slot key), rest)

/-- The leaf with which a text begins, and what is behind it. -/
def read? (t : Text) : Option (Leaf × Text) :=
  (FieldName.ofText? (t.takeWhile (· ∉ fieldMarks))).bind fun field =>
    let rest := t.dropWhile (· ∉ fieldMarks)
    (Operator.ofText? (rest.takeWhile (· ∈ Operator.signs))).bind fun operator =>
      readTail? field operator (rest.dropWhile (· ∈ Operator.signs))

/-- A run of characters ends at the first one that does not belong to it. -/
lemma run_append {p : Char → Bool} {t rest : Text} (ht : ∀ c ∈ t, p c = true)
    (hrest : ∀ c ∈ rest.head?, p c = false) :
    (t ++ rest).takeWhile p = t ∧ (t ++ rest).dropWhile p = rest := by
  rw [List.takeWhile_append_of_pos ht, List.dropWhile_append_of_pos ht]
  cases rest with
  | nil => simp
  | cons c rest =>
      have hc : ¬p c = true := by simp [hrest c rfl]
      rw [List.takeWhile_cons_of_neg hc, List.dropWhile_cons_of_neg hc]
      simp

lemma emptiness?_emptinessOperator (field : FieldName) (negated : Bool) :
    emptiness? field (emptinessOperator negated) = some (emptiness field negated) := by
  cases negated <;> rfl

lemma eq_of_emptiness? {field : FieldName} {operator : Operator} {l : Leaf}
    (h : emptiness? field operator = some l) :
    ∃ negated, l = emptiness field negated ∧ operator = emptinessOperator negated := by
  unfold emptiness? at h
  split at h
  case isTrue hfalse => exact ⟨false, (Option.some.inj h).symm, hfalse⟩
  case isFalse =>
    split at h
    case isTrue htrue => exact ⟨true, (Option.some.inj h).symm, htrue⟩
    case isFalse => simp at h

/-- The rest of a leaf begins with a quote, an at sign or a brace, so it ends the operator. -/
lemma head?_tail (l : Leaf) (rest : Text) :
    ∀ c ∈ (l.tail ++ rest).head?, c ∉ Operator.signs := by
  intro c hc
  cases l with
  | compare field operator operand =>
      cases operand with
      | moment m =>
          obtain ⟨letters, htext, -⟩ := m.eq_cons_text
          rw [tail, Operand.text, htext] at hc
          obtain rfl := Option.some.inj hc
          decide
      | slot key =>
          obtain rfl := Option.some.inj hc
          decide
  | emptiness field negated =>
      obtain rfl := Option.some.inj hc
      decide

/-- The rest of a leaf is read as it was written, if no letter is behind a moment. -/
lemma readTail?_tail_append (l : Leaf) {rest : Text}
    (hrest : l.EndsInMoment → ∀ c ∈ rest.head?, c.isAlpha = false) :
    readTail? l.field l.operator (l.tail ++ rest) = some (l, rest) := by
  cases l with
  | compare field operator operand =>
      cases operand with
      | moment m =>
          obtain ⟨letters, htext, hletters⟩ := m.eq_cons_text
          obtain ⟨htake, hdrop⟩ := run_append hletters (hrest trivial)
          have hm : Moment.ofText? ('@' :: letters) = some m :=
            Moment.ofText?_eq_some_iff.2 htext.symm
          rw [tail, Operand.text, htext, List.cons_append, readTail?, htake, hdrop, hm]
          rfl
      | slot key =>
          have hread := Filter.readToken?_placeholder key.ne_nil key.ne_brace rest
          have htail : readTail? field operator (placeholder key.text ++ rest)
              = (Filter.readToken? (placeholder key.text ++ rest)).bind fun (key, rest) =>
                  (SlotKey.ofText? key).map fun key => (compare field operator (.slot key), rest) :=
            rfl
          have hkey : SlotKey.ofText? key.text = some key := SlotKey.ofText?_eq_some_iff.2 rfl
          simp only [hread, Option.bind_some, hkey, Option.map_some] at htail
          exact htail
  | emptiness field negated =>
      have htail : readTail? field (emptinessOperator negated) ('\'' :: '\'' :: rest)
          = (emptiness? field (emptinessOperator negated)).map (·, rest) := rfl
      rw [emptiness?_emptinessOperator] at htail
      exact htail

lemma eq_of_readTail? {field : FieldName} {operator : Operator} {t rest : Text} {l : Leaf}
    (h : readTail? field operator t = some (l, rest)) :
    l.field = field ∧ l.operator = operator ∧ t = l.tail ++ rest := by
  unfold readTail? at h
  split at h
  case h_1 after =>
    obtain ⟨l', hl, heq⟩ := Option.map_eq_some_iff.1 h
    obtain ⟨rfl, rfl⟩ := Prod.mk.inj heq
    obtain ⟨negated, rfl, rfl⟩ := eq_of_emptiness? hl
    exact ⟨rfl, rfl, rfl⟩
  case h_2 after =>
    obtain ⟨m, hm, heq⟩ := Option.map_eq_some_iff.1 h
    obtain ⟨rfl, rfl⟩ := Prod.mk.inj heq
    refine ⟨rfl, rfl, ?_⟩
    rw [tail, Operand.text, ← Moment.ofText?_eq_some_iff.1 hm, List.cons_append,
      List.takeWhile_append_dropWhile]
  case h_3 =>
    obtain ⟨⟨key, after⟩, hread, hkey⟩ := Option.bind_eq_some_iff.1 h
    obtain ⟨key', hname, heq⟩ := Option.map_eq_some_iff.1 hkey
    obtain ⟨rfl, rfl⟩ := Prod.mk.inj heq
    refine ⟨rfl, rfl, ?_⟩
    rw [tail, Operand.text, ← SlotKey.ofText?_eq_some_iff.1 hname]
    exact Filter.eq_append_of_readToken? hread

lemma text_append (l : Leaf) (rest : Text) :
    l.text ++ rest = l.field.text ++ (l.operator.text ++ (l.tail ++ rest)) := by
  rw [text, List.append_assoc, List.append_assoc]

/-- The sign of a leaf ends its field. -/
lemma head?_operator (l : Leaf) (rest : Text) :
    ∀ c ∈ (l.operator.text ++ rest).head?, c ∈ Operator.signs := by
  intro c hc
  obtain ⟨sign, signs, htext⟩ := List.exists_cons_of_ne_nil l.operator.text_ne_nil
  rw [htext] at hc
  obtain rfl := Option.some.inj hc
  exact Operator.mem_signs_of_mem_text (htext ▸ List.mem_cons_self)

/-- The field of a leaf is read off the front of a text. -/
lemma run_field (l : Leaf) (rest : Text) :
    (l.text ++ rest).takeWhile (· ∉ fieldMarks) = l.field.text
      ∧ (l.text ++ rest).dropWhile (· ∉ fieldMarks) = l.operator.text ++ (l.tail ++ rest) := by
  have hname : ∀ c ∈ l.field.text, decide (c ∉ fieldMarks) = true := fun c hc =>
    decide_eq_true (l.field.not_mem_marks c hc)
  have hstop : ∀ c ∈ (l.operator.text ++ (l.tail ++ rest)).head?,
      decide (c ∉ fieldMarks) = false := by
    intro c hc
    have hmarks : Operator.signs ⊆ fieldMarks := by decide
    simpa using hmarks (l.head?_operator _ c hc)
  rw [text_append]
  exact run_append hname hstop

/-- The field and the sign of a leaf are read as they were written. -/
lemma read?_text_append_eq (l : Leaf) (rest : Text) :
    read? (l.text ++ rest) = readTail? l.field l.operator (l.tail ++ rest) := by
  have hsigns : ∀ c ∈ l.operator.text, decide (c ∈ Operator.signs) = true := fun c hc =>
    decide_eq_true (Operator.mem_signs_of_mem_text hc)
  have hend : ∀ c ∈ (l.tail ++ rest).head?, decide (c ∈ Operator.signs) = false := fun c hc =>
    decide_eq_false (head?_tail l rest c hc)
  obtain ⟨hfield, hbehind⟩ := l.run_field rest
  obtain ⟨hoperator, htail⟩ := run_append hsigns hend
  rw [read?, hfield, FieldName.ofText?_eq_some_iff.2 rfl, Option.bind_some]
  simp only [hbehind, hoperator, htail]
  rw [Operator.ofText?_eq_some_iff.2 rfl, Option.bind_some]

/-- A leaf is read as it was written, if no letter is behind a moment. -/
theorem read?_text_append (l : Leaf) {rest : Text}
    (hrest : l.EndsInMoment → ∀ c ∈ rest.head?, c.isAlpha = false) :
    read? (l.text ++ rest) = some (l, rest) :=
  (l.read?_text_append_eq rest).trans (readTail?_tail_append l hrest)

/-- Nothing but a leaf is read as one. -/
theorem eq_append_of_read? {t rest : Text} {l : Leaf} (h : read? t = some (l, rest)) :
    t = l.text ++ rest := by
  obtain ⟨field, hfield, h⟩ := Option.bind_eq_some_iff.1 h
  obtain ⟨operator, hoperator, h⟩ := Option.bind_eq_some_iff.1 h
  obtain ⟨rfl, rfl, htail⟩ := eq_of_readTail? h
  have hname := FieldName.ofText?_eq_some_iff.1 hfield
  have hsigns := Operator.ofText?_eq_some_iff.1 hoperator
  calc t
      = t.takeWhile (· ∉ fieldMarks) ++ t.dropWhile (· ∉ fieldMarks) :=
        List.takeWhile_append_dropWhile.symm
    _ = t.takeWhile (· ∉ fieldMarks)
          ++ ((t.dropWhile (· ∉ fieldMarks)).takeWhile (· ∈ Operator.signs)
            ++ (t.dropWhile (· ∉ fieldMarks)).dropWhile (· ∈ Operator.signs)) :=
        congrArg _ List.takeWhile_append_dropWhile.symm
    _ = l.text ++ rest := by
        rw [hname, hsigns, htail, text, List.append_assoc, List.append_assoc]

end Leaf

/-! ### Phrases -/

/-- The text behind a combinator with which a text begins. -/
def Combinator.read? : Text → Option (Combinator × Text)
  | ' ' :: '&' :: '&' :: ' ' :: rest => some (.and, rest)
  | ' ' :: '|' :: '|' :: ' ' :: rest => some (.or, rest)
  | _ => none

lemma Combinator.read?_text_append (c : Combinator) (rest : Text) :
    read? (c.text ++ rest) = some (c, rest) := by
  cases c <;> rfl

lemma Combinator.eq_append_of_read? {t rest : Text} {c : Combinator}
    (h : read? t = some (c, rest)) : t = c.text ++ rest := by
  unfold read? at h
  split at h
  case h_1 =>
    obtain ⟨rfl, rfl⟩ := Prod.mk.inj (Option.some.inj h)
    rfl
  case h_2 =>
    obtain ⟨rfl, rfl⟩ := Prod.mk.inj (Option.some.inj h)
    rfl
  case h_3 => simp at h

/-- No combinator begins without a space. -/
lemma Combinator.read?_eq_none {t : Text} (h : ∀ c ∈ t.head?, c ≠ ' ') : read? t = none := by
  unfold read?
  split
  case h_1 => exact absurd rfl (h ' ' rfl)
  case h_2 => exact absurd rfl (h ' ' rfl)
  case h_3 => rfl

/-- The two levels of the grammar. -/
inductive Level where
  | term
  | expression

/-- The trees of the grammar, with a constructor for each of its rules. -/
inductive Phrase : Level → Type where
  | leaf (l : Leaf) : Phrase .term
  /-- An expression in parentheses. -/
  | group (e : Phrase .expression) : Phrase .term
  | single (t : Phrase .term) : Phrase .expression
  /-- A term with a combinator and an expression behind it. -/
  | joined (t : Phrase .term) (combinator : Combinator) (e : Phrase .expression) :
      Phrase .expression

/-- A leaf or an expression in parentheses. -/
abbrev Term := Phrase .term

/-- A term, or terms with combinators between neighbours. -/
abbrev Expression := Phrase .expression

namespace Phrase

/-- The phrase as it stands in a filter. -/
def text : {level : Level} → Phrase level → Text
  | _, leaf l => l.text
  | _, group e => '(' :: e.text ++ [')']
  | _, single t => t.text
  | _, joined t c e => t.text ++ c.text ++ e.text

/-- The term with which a text begins, and what is behind it, given how to read an expression. -/
def readTerm? (inner : Text → Option (Expression × Text)) : Text → Option (Term × Text)
  | '(' :: rest =>
    match inner rest with
    | some (e, ')' :: after) => some (group e, after)
    | _ => none
  | t => (Leaf.read? t).map fun (l, rest) => (leaf l, rest)

/-- The phrase with which a text begins, and what is behind it. The number bounds the depth of the
search. -/
def read? : Nat → (level : Level) → Text → Option (Phrase level × Text)
  | 0, _, _ => none
  | fuel + 1, .term, t => readTerm? (read? fuel .expression) t
  | fuel + 1, .expression, t =>
    (read? fuel .term t).bind fun (t, rest) =>
      match Combinator.read? rest with
      | none => some (single t, rest)
      | some (c, rest) => (read? fuel .expression rest).map fun (e, rest) => (joined t c e, rest)

/-- The expression that a text is, if it is one. -/
def parse? (t : Text) : Option Expression :=
  match read? (2 * t.length + 1) .expression t with
  | some (e, []) => some e
  | _ => none

/-- The search depth that is enough for any phrase of the given level and length. -/
def depth : Level → Nat → Nat
  | .term, length => 2 * length
  | .expression, length => 2 * length + 1

/-- The characters that may stand behind a phrase. -/
def stops : Level → List Char
  | .term => [' ', ')']
  | .expression => [')']

lemma exists_cons_text (l : Leaf) : ∃ c t, l.text = c :: t ∧ c ≠ '(' := by
  obtain ⟨c, t, htext⟩ := List.exists_cons_of_ne_nil l.field.ne_nil
  refine ⟨c, t ++ l.operator.text ++ l.tail, by rw [Leaf.text, htext]; rfl, ?_⟩
  rintro rfl
  exact l.field.not_mem_marks '(' (htext ▸ List.mem_cons_self) (by decide)

variable {inner : Text → Option (Expression × Text)}

/-- A term that does not begin with a parenthesis is a leaf. -/
lemma readTerm?_cons_of_ne {c : Char} (h : c ≠ '(') (t : Text) :
    readTerm? inner (c :: t) = (Leaf.read? (c :: t)).map fun (l, rest) => (leaf l, rest) := by
  unfold readTerm?
  split
  case h_1 heq => exact absurd (List.cons.inj heq).1 h
  case h_2 => rfl

lemma readTerm?_group {t rest : Text} {e : Expression} (h : inner t = some (e, ')' :: rest)) :
    readTerm? inner ('(' :: t) = some (group e, rest) := by
  simp only [readTerm?, h]

/-- A term is read off the front of a text, if the expressions in it are. -/
lemma eq_append_of_readTerm? (hinner : ∀ t e rest, inner t = some (e, rest) → t = e.text ++ rest)
    {t rest : Text} {x : Term} (h : readTerm? inner t = some (x, rest)) : t = x.text ++ rest := by
  unfold readTerm? at h
  split at h
  case h_1 after =>
    split at h
    case h_1 e behind hread =>
      obtain ⟨rfl, rfl⟩ := Prod.mk.inj (Option.some.inj h)
      rw [hinner _ _ _ hread]
      simp [text]
    case h_2 => simp at h
  case h_2 =>
    obtain ⟨⟨l, behind⟩, hread, heq⟩ := Option.map_eq_some_iff.1 h
    obtain ⟨rfl, rfl⟩ := Prod.mk.inj heq
    exact Leaf.eq_append_of_read? hread

/-- No phrase is read without going down at all. -/
lemma exists_eq_succ_of_depth_le {level : Level} (x : Phrase level) {fuel : Nat}
    (h : depth level x.text.length ≤ fuel) : ∃ n, fuel = n + 1 := by
  have hpos : 0 < depth level x.text.length := by
    cases x with
    | leaf l =>
        obtain ⟨c, t, htext, -⟩ := exists_cons_text l
        simp [text, htext, depth]
    | group e => simp [text, depth]
    | single t => simp [depth]
    | joined t c e => simp [depth]
  exact Nat.exists_eq_succ_of_ne_zero (by omega)

/-- **Reading what is there**: a phrase is read as it was written, if what stands behind it may
stand there. -/
theorem read?_text_append {level : Level} (x : Phrase level) {fuel : Nat} {rest : Text}
    (hfuel : depth level x.text.length ≤ fuel) (hrest : ∀ c ∈ rest.head?, c ∈ stops level) :
    read? fuel level (x.text ++ rest) = some (x, rest) := by
  induction x generalizing fuel rest with
  | leaf l =>
      obtain ⟨c, t, htext, hc⟩ := exists_cons_text l
      obtain ⟨fuel, rfl⟩ := exists_eq_succ_of_depth_le (leaf l) hfuel
      have hletter : ∀ c ∈ rest.head?, c.isAlpha = false := by
        intro c hc
        have hstop := hrest c hc
        simp only [stops, List.mem_cons, List.not_mem_nil, or_false] at hstop
        rcases hstop with rfl | rfl <;> decide
      have hread := l.read?_text_append fun _ => hletter
      rw [htext, List.cons_append] at hread
      rw [text, htext, List.cons_append, read?, readTerm?_cons_of_ne hc, hread]
      rfl
  | group e ih =>
      obtain ⟨fuel, rfl⟩ := exists_eq_succ_of_depth_le (group e) hfuel
      have hinner : depth .expression e.text.length ≤ fuel := by
        simp only [text, List.length_append, List.length_cons, depth] at hfuel ⊢
        omega
      have hread : read? fuel .expression (e.text ++ ')' :: rest) = some (e, ')' :: rest) :=
        ih hinner (by simp [stops])
      have hshape : (group e).text ++ rest = '(' :: (e.text ++ ')' :: rest) := by simp [text]
      rw [hshape, read?, readTerm?_group hread]
  | single t ih =>
      obtain ⟨fuel, rfl⟩ := exists_eq_succ_of_depth_le (single t) hfuel
      have hterm : depth .term t.text.length ≤ fuel := by
        simp only [text, depth] at hfuel ⊢
        omega
      have hparen : ∀ c ∈ rest.head?, c = ')' := fun c hc => by simpa [stops] using hrest c hc
      have hread : read? fuel .term (t.text ++ rest) = some (t, rest) :=
        ih hterm fun c hc => by simp [stops, hparen c hc]
      have hnone : Combinator.read? rest = none :=
        Combinator.read?_eq_none fun c hc => by simp [hparen c hc]
      rw [text, read?, hread]
      simp only [Option.bind_some, hnone]
  | joined t c e iht ihe =>
      obtain ⟨fuel, rfl⟩ := exists_eq_succ_of_depth_le (joined t c e) hfuel
      have hlength : (joined t c e).text.length = t.text.length + 4 + e.text.length := by
        cases c <;> simp [text, Combinator.text] <;> omega
      simp only [depth, hlength] at hfuel
      have hterm : read? fuel .term (t.text ++ (c.text ++ (e.text ++ rest)))
          = some (t, c.text ++ (e.text ++ rest)) := by
        refine iht ?_ (by cases c <;> simp [stops, Combinator.text])
        simp only [depth]
        omega
      have hexpression : read? fuel .expression (e.text ++ rest) = some (e, rest) := by
        refine ihe ?_ hrest
        simp only [depth]
        omega
      rw [text, List.append_assoc, List.append_assoc, read?, hterm]
      simp only [Option.bind_some, Combinator.read?_text_append, hexpression, Option.map_some]

/-- **Reading nothing else**: what is read stands at the front of the text. -/
theorem eq_append_of_read? {fuel : Nat} {level : Level} {t rest : Text} {x : Phrase level}
    (h : read? fuel level t = some (x, rest)) : t = x.text ++ rest := by
  induction fuel generalizing level t rest with
  | zero => simp [read?] at h
  | succ fuel ih =>
      cases level with
      | term => exact eq_append_of_readTerm? (fun _ _ _ => ih) h
      | expression =>
          rw [read?] at h
          obtain ⟨⟨first, behind⟩, hfirst, h⟩ := Option.bind_eq_some_iff.1 h
          have hterm := ih hfirst
          cases hcombinator : Combinator.read? behind with
          | none =>
              simp only [hcombinator] at h
              obtain ⟨rfl, rfl⟩ := Prod.mk.inj (Option.some.inj h)
              exact hterm
          | some found =>
              obtain ⟨c, after⟩ := found
              simp only [hcombinator] at h
              obtain ⟨⟨e, last⟩, hread, heq⟩ := Option.map_eq_some_iff.1 h
              obtain ⟨rfl, rfl⟩ := Prod.mk.inj heq
              rw [hterm, Combinator.eq_append_of_read? hcombinator, ih hread, text]
              simp

/-- A text is parsed as an expression exactly if it is the text of that expression. -/
theorem parse?_eq_some_iff {t : Text} {e : Expression} : parse? t = some e ↔ t = e.text := by
  constructor
  · intro h
    unfold parse? at h
    split at h
    case h_1 e' hread =>
      obtain rfl := Option.some.inj h
      simpa using eq_append_of_read? hread
    case h_2 => simp at h
  · rintro rfl
    have hread : read? (depth .expression e.text.length) .expression (e.text ++ [])
        = some (e, []) :=
      read?_text_append e (Nat.le_refl _) (by simp)
    rw [List.append_nil] at hread
    rw [parse?]
    simp only [depth] at hread
    rw [hread]

/-- No text is that of two expressions. -/
theorem text_injective : Function.Injective (text : Expression → Text) := by
  intro e e' h
  have he : parse? e.text = some e := parse?_eq_some_iff.2 rfl
  have he' : parse? e.text = some e' := parse?_eq_some_iff.2 h
  exact Option.some.inj (he.symm.trans he')

end Phrase

end RecordQuery
