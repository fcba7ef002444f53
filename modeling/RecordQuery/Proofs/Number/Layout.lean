import RecordQuery.Number.Layout
import RecordQuery.Proofs.Text.Numeral
import RecordQuery.Proofs.Text.Quoted
import RecordQuery.Value.Json

/-!
The characters of number texts.

* `Text.unescaped_signedNumeral` and `Binary64.unescaped_json`: numbers are written without
  backslashes and control characters.
-/

namespace RecordQuery

namespace Text

lemma unescaped_of_isDigit {t : Text} (h : ∀ c ∈ t, c.isDigit = true) : Unescaped t := by
  intro c hc
  have hdigit := h c hc
  simp only [Char.isDigit, Bool.and_eq_true, decide_eq_true_eq] at hdigit
  refine ⟨?_, ?_⟩
  · rintro rfl
    exact absurd hdigit (by decide)
  · exact Nat.le_trans (by decide) hdigit.1

lemma unescaped_numeral (n : Nat) : Unescaped (numeral n) :=
  unescaped_of_isDigit fun _ hc => isDigit_of_mem_numeral hc

lemma unescaped_signedNumeral (n : Int) : Unescaped (signedNumeral n) := by
  rw [signedNumeral]
  split
  · exact .cons (by decide) (by decide) (unescaped_numeral _)
  · exact unescaped_numeral _

lemma unescaped_zeros (n : Nat) : Unescaped (List.replicate n '0') := by
  intro c hc
  obtain rfl := List.eq_of_mem_replicate hc
  decide

lemma unescaped_padded (width n : Nat) : Unescaped (padded width n) :=
  (unescaped_zeros _).append (unescaped_numeral n)

end Text

open Text

namespace Layout

variable {t : Text}

lemma unescaped_positional (h : Unescaped t) (point : Int) : Unescaped (positional t point) := by
  rw [positional]
  split_ifs
  · exact ((Unescaped.cons (by decide) (by decide) (.cons (by decide) (by decide) .nil)).append
      (unescaped_zeros _)).append h
  · exact h.append (unescaped_zeros _)
  · exact Unescaped.append (fun c hc => h c (List.mem_of_mem_take hc))
      (.cons (by decide) (by decide) fun c hc => h c (List.mem_of_mem_drop hc))

lemma unescaped_leading (h : Unescaped t) : Unescaped (leading t) := by
  rw [leading.eq_def]
  split
  · exact h
  · exact h
  · obtain ⟨hfirst, hrest⟩ := List.forall_mem_cons.1 h
    exact .cons hfirst.1 hfirst.2 (.cons (by decide) (by decide) hrest)

lemma unescaped_scientific (h : Unescaped t) {mark : Char} (hmark : Unescaped [mark]) (width : Nat)
    (exponent : Int) : Unescaped (scientific t mark width exponent) := by
  obtain ⟨hslash, hspace⟩ := List.forall_mem_singleton.1 hmark
  refine (unescaped_leading h).append (.cons hslash hspace ?_)
  split <;> exact .cons (by decide) (by decide) (unescaped_padded _ _)

lemma unescaped_signed (negative : Bool) (h : Unescaped t) : Unescaped (signed negative t) := by
  rw [signed]
  split
  · exact .cons (by decide) (by decide) h
  · exact h

end Layout

namespace Binary64

open Layout

lemma unescaped_text (x : Binary64) : Unescaped x.text := by
  cases x with
  | nan mark =>
      have hword : Unescaped "nan" := unescaped_of_all (by decide)
      exact hword
  | infinite negative =>
      have hword : Unescaped "inf" := unescaped_of_all (by decide)
      exact unescaped_signed negative hword
  | finite negative significand exponent =>
      have hzero : Unescaped "0.0" := unescaped_of_all (by decide)
      have hfraction : Unescaped ".0" := unescaped_of_all (by decide)
      have hmark : Unescaped ['e'] := unescaped_of_all (by decide)
      rw [text]
      generalize shortest significand exponent = found
      have hdigits := unescaped_numeral found.1
      split
      · exact unescaped_signed negative hzero
      · refine unescaped_signed negative ?_
        split_ifs
        · exact (unescaped_positional hdigits _).append hfraction
        · exact unescaped_positional hdigits _
        · exact unescaped_scientific hdigits hmark 2 _

/-- Numbers are written in JSON without backslashes and control characters. -/
theorem unescaped_json (x : Binary64) : Unescaped x.json := by
  cases x with
  | nan mark =>
      have hword : Unescaped "NaN" := unescaped_of_all (by decide)
      exact hword
  | infinite negative =>
      have hword : Unescaped "Infinity" := unescaped_of_all (by decide)
      exact unescaped_signed negative hword
  | finite negative significand exponent =>
      exact unescaped_text (finite negative significand exponent)

end Binary64

end RecordQuery
