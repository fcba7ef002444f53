import Mathlib.Data.List.Forall2
import RecordQuery.Proofs.Text.Padded

/-!
Numbers with marks behind them: how they are read, ordered and laid out.

* A `Field` is a number, the width to which it is filled up, and the mark behind it; `fieldsText`
  writes fields one after the other.
* `readNumbers?_fieldsText`: the numbers are read back, whatever the widths.
* `fieldsText_lt_iff`: texts of fields of the same widths and marks have the order of their numbers,
  the first ones that differ deciding.
* `hasShape_fieldsText`: fields that are wide enough for their numbers are laid out as their widths
  say.
-/

namespace RecordQuery

namespace Text

/-- A number in a text, the width to which it is filled up, and the mark behind it. -/
structure Field where
  width : Nat
  number : Nat
  mark : Char

/-- The number and its mark. -/
def Field.text (f : Field) : Text := padded f.width f.number ++ [f.mark]

/-- Fields one after the other. -/
def fieldsText (fields : List Field) : Text := fields.flatMap Field.text

lemma fieldsText_cons (f : Field) (fields : List Field) :
    fieldsText (f :: fields) = padded f.width f.number ++ f.mark :: fieldsText fields := by
  rw [fieldsText, List.flatMap_cons, Field.text, List.append_assoc]
  rfl

/-- Fields hold digits and marks only. -/
lemma not_mem_fieldsText {c : Char} {fields : List Field} (hc : c.isDigit = false)
    (h : ∀ f ∈ fields, f.mark ≠ c) : c ∉ fieldsText fields := by
  intro hmem
  obtain ⟨f, hf, hmem⟩ := List.mem_flatMap.1 hmem
  rcases List.mem_append.1 hmem with hdigit | hmark
  · rw [isDigit_of_mem_padded hdigit] at hc
    cases hc
  · exact h f hf (List.mem_singleton.1 hmark).symm

/-! ### Reading -/

/-- The numbers in front of given marks, one in front of each, and what is behind the last mark. -/
def readNumbers? : Text → Text → Option (List Nat × Text)
  | [], t => some ([], t)
  | mark :: marks, t =>
    match t.dropWhile Char.isDigit with
    | [] => none
    | c :: behind =>
      if c = mark then do
        let number ← numeralValue? (t.takeWhile Char.isDigit)
        let (numbers, rest) ← readNumbers? marks behind
        return (number :: numbers, rest)
      else none

/-- Fields are read as their numbers if no mark is a digit. -/
theorem readNumbers?_fieldsText {fields : List Field} (h : ∀ f ∈ fields, f.mark.isDigit = false)
    (rest : Text) :
    readNumbers? (fields.map Field.mark) (fieldsText fields ++ rest)
      = some (fields.map Field.number, rest) := by
  induction fields with
  | nil => rfl
  | cons f fields ih =>
      obtain ⟨hmark, hfields⟩ := List.forall_mem_cons.1 h
      have hdigits : ∀ c ∈ padded f.width f.number, c.isDigit = true := fun c hc =>
        isDigit_of_mem_padded hc
      have htext : fieldsText (f :: fields) ++ rest
          = padded f.width f.number ++ f.mark :: (fieldsText fields ++ rest) := by
        rw [fieldsText_cons, List.append_assoc, List.cons_append]
      have htake : (fieldsText (f :: fields) ++ rest).takeWhile Char.isDigit
          = padded f.width f.number := by
        rw [htext, List.takeWhile_append_of_pos hdigits, List.takeWhile_cons_of_neg (by simp [hmark]),
          List.append_nil]
      have hdrop : (fieldsText (f :: fields) ++ rest).dropWhile Char.isDigit
          = f.mark :: (fieldsText fields ++ rest) := by
        rw [htext, List.dropWhile_append_of_pos hdigits, List.dropWhile_cons_of_neg (by simp [hmark])]
      rw [List.map_cons, readNumbers?, hdrop, htake]
      simp only [if_pos, numeralValue?_padded, ih hfields]
      rfl

/-! ### Order -/

/-- The number is not wider than its field. -/
def Field.Fits (f : Field) : Prop := 0 < f.width ∧ f.number < 10 ^ f.width

/-- Two fields differ in their numbers at most. -/
def Field.Aligned (f g : Field) : Prop := f.width = g.width ∧ f.mark = g.mark

/-- The first numbers that differ decide which text is the lesser one. -/
theorem fieldsText_lt_iff {fs gs : List Field} (h : List.Forall₂ Field.Aligned fs gs)
    (hfs : ∀ f ∈ fs, f.Fits) (hgs : ∀ g ∈ gs, g.Fits) {rest : Text} :
    fieldsText fs ++ rest < fieldsText gs ++ rest
      ↔ fs.map Field.number < gs.map Field.number := by
  induction h with
  | nil => exact iff_of_false (List.lt_irrefl rest) (List.lt_irrefl [])
  | @cons f g fs gs hfg _ ih =>
      obtain ⟨⟨hpos, hf⟩, hfs⟩ := List.forall_mem_cons.1 hfs
      obtain ⟨⟨-, hg⟩, hgs⟩ := List.forall_mem_cons.1 hgs
      obtain ⟨hwidth, hmark⟩ := hfg
      rw [← hwidth] at hg
      rw [fieldsText_cons, fieldsText_cons, List.append_assoc, List.append_assoc, ← hwidth, ← hmark,
        padded_append_lt_iff hpos hf hg, List.cons_append, List.cons_append,
        List.cons_lt_cons_self, ih hfs hgs, List.map_cons, List.map_cons, List.cons_lt_cons_iff]

/-! ### Layout -/

/-- A text has the shape of a pattern, in which a zero stands for any digit and every other character
for itself. -/
def HasShape (pattern t : Text) : Prop :=
  List.Forall₂ (fun p c => if p = '0' then c.isDigit = true else c = p) pattern t

/-- Digits have the shape of as many zeros. -/
lemma hasShape_replicate {t : Text} (h : ∀ c ∈ t, c.isDigit = true) :
    HasShape (List.replicate t.length '0') t := by
  induction t with
  | nil => exact .nil
  | cons c t ih =>
      obtain ⟨hc, ht⟩ := List.forall_mem_cons.1 h
      exact .cons hc (ih ht)

/-- The pattern of fields: zeros for the digits, and the marks. -/
def fieldsPattern (fields : List Field) : Text :=
  fields.flatMap fun f => List.replicate f.width '0' ++ [f.mark]

/-- Fields that are wide enough have the shape of their pattern. -/
theorem hasShape_fieldsText {fields : List Field} (hfits : ∀ f ∈ fields, f.Fits)
    (hmarks : ∀ f ∈ fields, f.mark ≠ '0') :
    HasShape (fieldsPattern fields) (fieldsText fields) := by
  induction fields with
  | nil => exact .nil
  | cons f fields ih =>
      obtain ⟨⟨hpos, hnumber⟩, hfits⟩ := List.forall_mem_cons.1 hfits
      obtain ⟨hmark, hmarks⟩ := List.forall_mem_cons.1 hmarks
      have hdigits : HasShape (List.replicate f.width '0') (padded f.width f.number) := by
        have hshape := hasShape_replicate fun c (hc : c ∈ padded f.width f.number) =>
          isDigit_of_mem_padded hc
        rwa [length_padded hpos hnumber] at hshape
      have hend : HasShape [f.mark] [f.mark] := .cons (if_neg hmark ▸ rfl) .nil
      exact List.rel_append (List.rel_append hdigits hend) (ih hfits hmarks)

end Text

end RecordQuery
