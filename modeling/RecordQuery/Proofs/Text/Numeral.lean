import Mathlib.Algebra.Group.Nat.Defs
import Mathlib.Tactic.Common
import RecordQuery.Text

/-!
Numerals as texts: how long a numeral is, and how it can be cut in two.

* `exists_eq_numeral_of_append`: the front of a positive number's numeral, if it is not empty, is
  the numeral of a positive number again: no leading zero can appear in it (`head?_numeral_ne`).
* `exceedsLimit_iff` tells the integers with too many digits by their size.
* `ten_mul_lt_of_append`: a numeral that is two numerals one after the other denotes more than
  ten times what the first of them denotes.
* `signedNumeral_append_inj`: in front of anything but a digit, the numeral of an integer tells where
  it ends and which integer it denotes.
-/

namespace RecordQuery

namespace Text

lemma numeral_ne_nil (n : Nat) : numeral n ≠ [] := Nat.toDigits_ne_nil

lemma isDigit_of_mem_numeral {n : Nat} {c : Char} (h : c ∈ numeral n) : c.isDigit = true :=
  Nat.isDigit_of_mem_toDigits (by decide) (by decide) h

/-- A numeral begins with a digit. -/
lemma exists_numeral_eq_cons (n : Nat) : ∃ c t, numeral n = c :: t ∧ c.isDigit = true := by
  obtain ⟨c, t, h⟩ := List.exists_cons_of_ne_nil (numeral_ne_nil n)
  exact ⟨c, t, h, isDigit_of_mem_numeral (h ▸ List.mem_cons_self)⟩

/-- The digits of a numeral add up to its number. -/
lemma ofDigitChars_numeral (n : Nat) : Nat.ofDigitChars 10 (numeral n) 0 = n :=
  Nat.ofDigitChars_ten_toDigits

lemma numeral_injective : Function.Injective numeral := by
  intro m n h
  rw [← ofDigitChars_numeral m, h, ofDigitChars_numeral]

/-- The last digit can be taken off a numeral. -/
lemma numeral_ten_mul_add {k d : Nat} (hk : 0 < k) (hd : d < 10) :
    numeral (10 * k + d) = numeral k ++ numeral d :=
  (Nat.toDigits_append_toDigits (by decide) hk hd).symm

/-- An integer has too many digits exactly from a power of ten on. -/
theorem exceedsLimit_iff {n : Int} : exceedsLimit n = true ↔ 10 ^ digitLimit ≤ n.natAbs := by
  have hlength : (numeral n.natAbs).length ≤ digitLimit ↔ n.natAbs < 10 ^ digitLimit :=
    Nat.length_toDigits_le_iff (by decide) (by decide)
  rw [exceedsLimit, decide_eq_true_iff, ← Nat.not_le, hlength, Nat.not_lt]

/-- The smallest number with too many digits. -/
def tooLong : Int := Int.ofNat (10 ^ digitLimit)

lemma exceedsLimit_tooLong : exceedsLimit tooLong = true := exceedsLimit_iff.2 (Nat.le_refl _)

/-- The front of a positive number's numeral is the numeral of a positive number. -/
theorem exists_eq_numeral_of_append {n : Nat} {front back : Text} (hn : 0 < n)
    (h : numeral n = front ++ back) (hfront : front ≠ []) : ∃ k, 0 < k ∧ front = numeral k := by
  induction n using Nat.strongRecOn generalizing back with
  | _ n ih =>
      rcases List.eq_nil_or_concat back with rfl | ⟨init, last, rfl⟩
      · exact ⟨n, hn, by rw [h, List.append_nil]⟩
      · have hten : 10 ≤ n := by
          -- a single digit leaves nothing for the back
          by_contra hlt
          have hlen := congrArg List.length h
          rw [numeral, Nat.toDigits_of_lt_base (by omega)] at hlen
          have hpos := List.length_pos_iff.2 hfront
          simp at hlen
          omega
        have hcut : numeral n = numeral (n / 10) ++ [(n % 10).digitChar] :=
          Nat.toDigits_of_base_le (by decide) hten
        have hinit : numeral (n / 10) = front ++ init := by
          rw [hcut, List.concat_eq_append, ← List.append_assoc] at h
          exact (List.append_inj' h rfl).1
        exact ih (n / 10) (by omega) (by omega) hinit

/-- The numeral of a positive number has no leading zero. -/
lemma head?_numeral_ne {n : Nat} (hn : 0 < n) : (numeral n).head? ≠ some '0' := by
  intro hzero
  obtain ⟨t, ht⟩ := List.head?_eq_some_iff.1 hzero
  have hcut : numeral n = ['0'] ++ t := ht
  obtain ⟨k, hk, hfront⟩ := exists_eq_numeral_of_append hn hcut (List.cons_ne_nil _ _)
  have hsame : k = 0 := numeral_injective hfront.symm
  omega

/-- Two numerals one after the other denote more than ten times the first. -/
theorem ten_mul_lt_of_append {m k n : Nat} (hn : 0 < n)
    (h : numeral m = numeral k ++ numeral n) : 10 * k < m := by
  have hlen : 1 ≤ (numeral n).length := Nat.length_toDigits_pos
  have hm : m = 10 ^ (numeral n).length * k + n := by
    calc m = Nat.ofDigitChars 10 (numeral k ++ numeral n) 0 := by rw [← h, ofDigitChars_numeral]
      _ = Nat.ofDigitChars 10 (numeral n) k := by
          rw [Nat.ofDigitChars_append, ofDigitChars_numeral]
      _ = 10 ^ (numeral n).length * k + n := by
          rw [Nat.ofDigitChars_eq_ofDigitChars_zero, ofDigitChars_numeral]
  have hten : 10 ^ 1 ≤ 10 ^ (numeral n).length := Nat.pow_le_pow_right (by decide) hlen
  have hmul : 10 * k ≤ 10 ^ (numeral n).length * k := Nat.mul_le_mul_right k hten
  omega

/-- The text does not begin with a digit. -/
def NoDigit (t : Text) : Prop := ∀ c ∈ t.head?, c.isDigit = false

lemma noDigit_nil : NoDigit [] := nofun

lemma noDigit_cons {c : Char} (h : c.isDigit = false) (t : Text) : NoDigit (c :: t) := by
  rintro d hd
  obtain rfl := Option.some.inj hd
  exact h

lemma takeWhile_numeral_append (n : Nat) {t : Text} (h : NoDigit t) :
    (numeral n ++ t).takeWhile Char.isDigit = numeral n := by
  rw [List.takeWhile_append_of_pos fun c hc => isDigit_of_mem_numeral hc]
  cases t with
  | nil => simp
  | cons c t => rw [List.takeWhile_cons_of_neg (by simp [h c rfl]), List.append_nil]

/-- In front of anything but a digit, a numeral tells where it ends. -/
theorem numeral_append_inj {m n : Nat} {r s : Text} (hr : NoDigit r) (hs : NoDigit s)
    (h : numeral m ++ r = numeral n ++ s) : m = n ∧ r = s := by
  have hnumeral : numeral m = numeral n := by
    rw [← takeWhile_numeral_append m hr, h, takeWhile_numeral_append n hs]
  rw [hnumeral] at h
  exact ⟨numeral_injective hnumeral, List.append_cancel_left h⟩

/-- No numeral begins with a sign. -/
lemma numeral_append_ne (n : Nat) (r s : Text) : numeral n ++ r ≠ '-' :: s := by
  intro h
  obtain ⟨c, t, ht, hdigit⟩ := exists_numeral_eq_cons n
  rw [ht] at h
  rw [(List.cons.inj h).1] at hdigit
  exact absurd hdigit (by decide)

/-- In front of anything but a digit, the numeral of an integer tells where it ends. -/
theorem signedNumeral_append_inj {m n : Int} {r s : Text} (hr : NoDigit r) (hs : NoDigit s)
    (h : signedNumeral m ++ r = signedNumeral n ++ s) : m = n ∧ r = s := by
  rw [signedNumeral, signedNumeral] at h
  split at h <;> split at h
  · obtain ⟨habs, hrs⟩ := numeral_append_inj hr hs (List.cons.inj h).2
    exact ⟨by omega, hrs⟩
  · exact absurd h.symm (numeral_append_ne _ _ _)
  · exact absurd h (numeral_append_ne _ _ _)
  · obtain ⟨habs, hrs⟩ := numeral_append_inj hr hs h
    exact ⟨by omega, hrs⟩

end Text

end RecordQuery
