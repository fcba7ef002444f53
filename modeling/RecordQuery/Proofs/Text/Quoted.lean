import Mathlib.Tactic.Common
import RecordQuery.Text.Quoted

/-!
Quoted texts: where they end, and what they stand for.

* `Text.Escaped` says of a text that its backslashes take characters with them, from left to right,
  and never a quote. `Text.behindQuote?` is what a reader finds behind the first quote that no
  backslash takes with it.
* `Escaped.behindQuote?_escapeQuotes`: such a text ends, as a literal, where its literal ends.
* `escapeQuotes_injective` and `jsonString_append_inj`: no two texts have the same literal, and none
  is the beginning of another one's JSON string, whatever stands behind.
-/

namespace RecordQuery

namespace Text

/-! ### Where a literal ends -/

/-- What is behind the first quote, if a backslash takes the next character with it. -/
def behindQuote? : Text → Option Text
  | [] => none
  | '\'' :: rest => some rest
  | '\\' :: _ :: rest => behindQuote? rest
  | _ :: rest => behindQuote? rest

/-- No character is a control character or a backslash. -/
def Unescaped (t : Text) : Prop := ∀ c ∈ t, c ≠ '\\' ∧ 0x20 ≤ c.toNat

/-- A text without control characters in which each backslash takes a character with it that is no
quote. -/
inductive Escaped : Text → Prop where
  | nil : Escaped []
  | char {c : Char} {t : Text} (hc : c ≠ '\\') (hspace : 0x20 ≤ c.toNat) (ht : Escaped t) :
      Escaped (c :: t)
  | pair {c : Char} {t : Text} (hc : c ≠ '\'') (hspace : 0x20 ≤ c.toNat) (ht : Escaped t) :
      Escaped ('\\' :: c :: t)

lemma escapeQuotes_cons (c : Char) (t : Text) :
    escapeQuotes (c :: t) = (if c = '\'' then ['\\', '\''] else [c]) ++ escapeQuotes t := rfl

/-- A text without quotes has none to escape. -/
lemma escapeQuotes_of_not_mem {t : Text} (h : '\'' ∉ t) : escapeQuotes t = t := by
  induction t with
  | nil => rfl
  | cons c t ih =>
      obtain ⟨hc, ht⟩ := not_or.1 (List.mem_cons.not.1 h)
      rw [escapeQuotes_cons, if_neg (Ne.symm hc), ih ht, List.singleton_append]

lemma behindQuote?_cons_of_ne {c : Char} (hquote : c ≠ '\'') (hslash : c ≠ '\\') (rest : Text) :
    behindQuote? (c :: rest) = behindQuote? rest := by
  rw [behindQuote?]
  · exact hquote
  · exact fun _ _ h _ => hslash h

/-- Whether a text is unescaped can be computed. -/
lemma unescaped_of_all {t : Text} (h : t.all (fun c => c ≠ '\\' ∧ 0x20 ≤ c.toNat) = true) :
    Unescaped t := fun c hc => of_decide_eq_true (List.all_eq_true.1 h c hc)

lemma Unescaped.escaped {t : Text} (h : Unescaped t) : Escaped t := by
  induction t with
  | nil => exact .nil
  | cons c t ih =>
      obtain ⟨hc, ht⟩ := List.forall_mem_cons.1 h
      exact .char hc.1 hc.2 (ih ht)

lemma Unescaped.nil : Unescaped [] := List.forall_mem_nil _

lemma Unescaped.append {t u : Text} (ht : Unescaped t) (hu : Unescaped u) : Unescaped (t ++ u) :=
  List.forall_mem_append.2 ⟨ht, hu⟩

lemma Unescaped.cons {c : Char} {t : Text} (hc : c ≠ '\\') (hspace : 0x20 ≤ c.toNat)
    (ht : Unescaped t) : Unescaped (c :: t) :=
  List.forall_mem_cons.2 ⟨⟨hc, hspace⟩, ht⟩

namespace Escaped

variable {t u : Text}

lemma append (ht : Escaped t) (hu : Escaped u) : Escaped (t ++ u) := by
  induction ht with
  | nil => exact hu
  | char hc hspace _ ih => exact .char hc hspace ih
  | pair hc hspace _ ih => exact .pair hc hspace ih

lemma joined {separator : Text} (hseparator : Escaped separator) {parts : List Text}
    (h : ∀ part ∈ parts, Escaped part) : Escaped (Text.joined separator parts) := by
  induction parts with
  | nil => exact .nil
  | cons part parts ih =>
      obtain ⟨hpart, hparts⟩ := List.forall_mem_cons.1 h
      cases parts with
      | nil => simpa [Text.joined] using hpart
      | cons next parts =>
          rw [Text.joined, List.intercalate_cons_cons]
          exact (hpart.append hseparator).append (ih hparts)

/-- Quotes that are escaped are no control characters either. -/
lemma space_le_of_mem_escapeQuotes (h : Escaped t) :
    ∀ c ∈ escapeQuotes t, 0x20 ≤ c.toNat := by
  have hcons {c : Char} {t : Text} (hspace : 0x20 ≤ c.toNat)
      (ht : ∀ c ∈ escapeQuotes t, 0x20 ≤ c.toNat) :
      ∀ d ∈ escapeQuotes (c :: t), 0x20 ≤ d.toNat := by
    rw [escapeQuotes_cons]
    refine List.forall_mem_append.2 ⟨?_, ht⟩
    split
    · simp
    · exact List.forall_mem_singleton.2 hspace
  induction h with
  | nil => exact nofun
  | char _ hspace _ ih => exact hcons hspace ih
  | pair _ hspace _ ih => exact hcons (by decide) (hcons hspace ih)

/-- The reader of a literal goes through an escaped text up to the quote behind it. -/
theorem behindQuote?_escapeQuotes (h : Escaped t) (rest : Text) :
    behindQuote? (escapeQuotes t ++ '\'' :: rest) = some rest := by
  induction h with
  | nil => rfl
  | @char c t hc _ _ ih =>
      rw [escapeQuotes_cons]
      split
      case isTrue => exact ih
      case isFalse hquote =>
        rw [List.append_assoc, List.singleton_append, behindQuote?_cons_of_ne hquote hc]
        exact ih
  | @pair c t hc _ _ ih =>
      rw [escapeQuotes_cons, escapeQuotes_cons, if_neg (by decide), if_neg hc]
      exact ih

end Escaped

/-! ### What a literal stands for -/

/-- An escaped text never begins with a quote. -/
lemma escapeQuotes_ne_quote_cons (t rest : Text) : escapeQuotes t ≠ '\'' :: rest := by
  cases t with
  | nil => simp [escapeQuotes]
  | cons c t =>
      rw [escapeQuotes_cons]
      split
      · simp
      case isFalse hquote => exact fun h => hquote (List.cons.inj h).1

/-- Two texts with the same quotes escaped are the same. -/
theorem escapeQuotes_injective : Function.Injective escapeQuotes := by
  intro t u h
  induction t generalizing u with
  | nil =>
      cases u with
      | nil => rfl
      | cons d u =>
          rw [escapeQuotes_cons] at h
          split at h <;> simp [escapeQuotes] at h
  | cons c t ih =>
      cases u with
      | nil =>
          rw [escapeQuotes_cons] at h
          split at h <;> simp [escapeQuotes] at h
      | cons d u =>
          rw [escapeQuotes_cons, escapeQuotes_cons] at h
          by_cases hc : c = '\'' <;> by_cases hd : d = '\''
          · rw [if_pos hc, if_pos hd] at h
            rw [hc, hd, ih (List.append_cancel_left h)]
          · -- the backslash would be a character of the other text, and a quote would follow it
            rw [if_pos hc, if_neg hd] at h
            exact absurd (List.cons.inj h).2.symm (escapeQuotes_ne_quote_cons u _)
          · rw [if_neg hc, if_pos hd] at h
            exact absurd (List.cons.inj h).2 (escapeQuotes_ne_quote_cons t _)
          · rw [if_neg hc, if_neg hd] at h
            obtain ⟨hcd, htu⟩ := List.cons.inj h
            rw [hcd, ih htu]

lemma literal_injective : Function.Injective literal := fun _ _ h =>
  escapeQuotes_injective (List.append_cancel_right (List.cons.inj h).2)

/-! ### JSON strings -/

/-- The character of an escape with one letter. -/
def unescapedLetter : Char → Char
  | 'b' => '\x08'
  | 't' => '\t'
  | 'n' => '\n'
  | 'f' => '\x0c'
  | 'r' => '\r'
  | c => c

/-- The value of a lower-case digit of base sixteen. -/
def hexValue (c : Char) : Nat := if c.isDigit then c.toNat - 48 else c.toNat - 87

/-- The first character that the content of a JSON string stands for, and what is behind it. Of a
character by its number, only the two last digits count. -/
def readJsonChar? : Text → Option (Char × Text)
  | '\\' :: 'u' :: _ :: _ :: c :: d :: rest =>
    some (Char.ofNat (16 * hexValue c + hexValue d), rest)
  | '\\' :: letter :: rest => some (unescapedLetter letter, rest)
  | c :: rest => some (c, rest)
  | [] => none

/-- The four digits of a control character. -/
lemma hexadecimal_four {n : Nat} (hn : n < 0x20) :
    ∃ c d, hexadecimal 4 n = ['0', '0', c, d] ∧ 16 * hexValue c + hexValue d = n
      ∧ Unescaped (hexadecimal 4 n) := by
  have hall : ∀ n < 0x20,
      hexadecimal 4 n = ['0', '0', (n / 16).digitChar, (n % 16).digitChar]
        ∧ 16 * hexValue (n / 16).digitChar + hexValue (n % 16).digitChar = n
        ∧ (hexadecimal 4 n).all (fun c => c ≠ '\\' ∧ 0x20 ≤ c.toNat) = true := by decide
  obtain ⟨hdigits, hvalue, hunescaped⟩ := hall n hn
  exact ⟨_, _, hdigits, hvalue, unescaped_of_all hunescaped⟩

/-- The three ways in which a character stands in a JSON string: as it is, behind a backslash as a
letter of its own, or by its number. -/
lemma jsonEscape_cases (c : Char) :
    (jsonEscape c = [c] ∧ c ≠ '"' ∧ c ≠ '\\' ∧ 0x20 ≤ c.toNat)
      ∨ (∃ letter, jsonEscape c = ['\\', letter] ∧ unescapedLetter letter = c
          ∧ letter ≠ 'u' ∧ letter ≠ '\'' ∧ 0x20 ≤ letter.toNat)
      ∨ (jsonEscape c = '\\' :: 'u' :: hexadecimal 4 c.toNat ∧ c.toNat < 0x20) := by
  rw [jsonEscape]
  by_cases hletter : c = '"' ∨ c = '\\' ∨ c = '\x08' ∨ c = '\t' ∨ c = '\n' ∨ c = '\x0c' ∨ c = '\r'
  · refine Or.inr (Or.inl ?_)
    rcases hletter with rfl | rfl | rfl | rfl | rfl | rfl | rfl
    all_goals exact ⟨_, rfl, rfl, by decide, by decide, by decide⟩
  · simp only [not_or] at hletter
    obtain ⟨h1, h2, h3, h4, h5, h6, h7⟩ := hletter
    rw [if_neg h1, if_neg h2, if_neg h3, if_neg h4, if_neg h5, if_neg h6, if_neg h7]
    by_cases hlow : c.toNat < 0x20
    · exact Or.inr (Or.inr ⟨if_pos hlow, hlow⟩)
    · exact Or.inl ⟨if_neg hlow, h1, h2, Nat.le_of_not_lt hlow⟩

/-- What stands for a character in a JSON string is read as that character. -/
lemma readJsonChar?_jsonEscape (c : Char) (rest : Text) :
    readJsonChar? (jsonEscape c ++ rest) = some (c, rest) := by
  rcases jsonEscape_cases c with ⟨h, -, hslash, -⟩ | ⟨letter, h, hletter, hu, -⟩ | ⟨h, hlow⟩
  · rw [h, List.singleton_append, readJsonChar?]
    · exact fun _ _ _ _ _ hc _ => hslash hc
    · exact fun _ _ hc _ => hslash hc
  · have hread : readJsonChar? ('\\' :: letter :: rest) = some (unescapedLetter letter, rest) := by
      rw [readJsonChar?]
      exact fun _ _ _ _ _ h _ => hu h
    rw [h, List.cons_append, List.singleton_append, hread, hletter]
  · obtain ⟨d, e, hdigits, hvalue, -⟩ := hexadecimal_four hlow
    have hread : readJsonChar? (jsonEscape c ++ rest)
        = some (Char.ofNat (16 * hexValue d + hexValue e), rest) := by
      rw [h, hdigits]
      rfl
    rw [hread, hvalue, Char.ofNat_toNat]

lemma escaped_jsonEscape (c : Char) : Escaped (jsonEscape c) := by
  rcases jsonEscape_cases c with ⟨h, -, hslash, hspace⟩ | ⟨_, h, -, -, hquote, hspace⟩ | ⟨h, hlow⟩
  · rw [h]
    exact .char hslash hspace .nil
  · rw [h]
    exact .pair hquote hspace .nil
  · obtain ⟨_, _, -, -, hdigits⟩ := hexadecimal_four hlow
    rw [h]
    exact .pair (by decide) (by decide) hdigits.escaped

/-- No character of a JSON string is mistaken for its end. -/
lemma jsonEscape_append_ne (c : Char) (t r : Text) : jsonEscape c ++ t ≠ '"' :: r := by
  intro heq
  rcases jsonEscape_cases c with ⟨h, hquote, -⟩ | ⟨_, h, -⟩ | ⟨h, -⟩
  · rw [h] at heq
    exact hquote (List.cons.inj heq).1
  all_goals
    rw [h] at heq
    exact absurd (List.cons.inj heq).1 (by decide)

lemma escaped_jsonString (t : Text) : Escaped (jsonString t) := by
  have hcontent : Escaped (t.flatMap jsonEscape) := by
    induction t with
    | nil => exact .nil
    | cons c t ih => exact (escaped_jsonEscape c).append ih
  exact .char (by decide) (by decide) (hcontent.append (.char (by decide) (by decide) .nil))

/-- A JSON string tells where it ends and what it stands for. -/
theorem jsonString_append_inj {t u r s : Text} (h : jsonString t ++ r = jsonString u ++ s) :
    t = u ∧ r = s := by
  have hcontent : t.flatMap jsonEscape ++ '"' :: r = u.flatMap jsonEscape ++ '"' :: s := by
    simpa [jsonString] using h
  clear h
  induction t generalizing u with
  | nil =>
      cases u with
      | nil => exact ⟨rfl, (List.cons.inj hcontent).2⟩
      | cons d u =>
          rw [List.flatMap_cons, List.append_assoc] at hcontent
          exact absurd hcontent.symm (jsonEscape_append_ne d _ _)
  | cons c t ih =>
      rw [List.flatMap_cons, List.append_assoc] at hcontent
      cases u with
      | nil => exact absurd hcontent (jsonEscape_append_ne c _ _)
      | cons d u =>
          rw [List.flatMap_cons, List.append_assoc] at hcontent
          have hread := congrArg readJsonChar? hcontent
          rw [readJsonChar?_jsonEscape, readJsonChar?_jsonEscape] at hread
          obtain ⟨hcd, hrest⟩ := Prod.mk.inj (Option.some.inj hread)
          obtain ⟨htu, hrs⟩ := ih hrest
          exact ⟨by rw [hcd, htu], hrs⟩

end Text

end RecordQuery
