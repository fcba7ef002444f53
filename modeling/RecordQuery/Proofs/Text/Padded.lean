import Mathlib.Algebra.Group.Nat.Defs
import Mathlib.Order.Nat
import Mathlib.Tactic.Common
import RecordQuery.Proofs.Text.Numeral

/-!
Numerals of a fixed width.

* `leftpad_toDigits_succ`: the last digit can be taken off a numeral that is filled up with zeros,
  in any base.
* `padded_append_lt_iff`: numerals of the same width have the order of their numbers, and where they
  are the same the texts behind them decide.
* `numeralValue?_padded`: zeros in front do not change what a numeral denotes.
-/

namespace RecordQuery

namespace Text

/-- The last digit of a numeral with zeros in front. -/
lemma leftpad_toDigits_succ {b w : Nat} (n : Nat) (hb : 1 < b) (hw : 0 < w) :
    (Nat.toDigits b n).leftpad (w + 1) '0'
      = (Nat.toDigits b (n / b)).leftpad w '0' ++ [(n % b).digitChar] := by
  by_cases hn : n < b
  · -- a number of one digit leaves the zeros, and one of them is the numeral of zero
    obtain ⟨v, rfl⟩ := Nat.exists_eq_add_one_of_ne_zero (Nat.ne_of_gt hw)
    rw [Nat.toDigits_of_lt_base hn, Nat.div_eq_of_lt hn, Nat.mod_eq_of_lt hn, Nat.toDigits_zero,
      List.leftpad, List.leftpad, List.length_singleton, List.length_singleton,
      Nat.add_sub_cancel, Nat.add_sub_cancel, ← List.replicate_succ']
  · rw [Nat.toDigits_of_base_le hb (Nat.le_of_not_lt hn), List.leftpad, List.leftpad,
      List.length_append, List.length_singleton, Nat.add_sub_add_right, List.append_assoc]

lemma padded_succ {w : Nat} (n : Nat) (hw : 0 < w) :
    padded (w + 1) n = padded w (n / 10) ++ [(n % 10).digitChar] :=
  leftpad_toDigits_succ n (by decide) hw

lemma hexadecimal_two {n : Nat} (hn : n < 256) :
    hexadecimal 2 n = [(n / 16).digitChar, (n % 16).digitChar] := by
  have hlast : hexadecimal 2 n
      = (Nat.toDigits 16 (n / 16)).leftpad 1 '0' ++ [(n % 16).digitChar] :=
    leftpad_toDigits_succ n (by decide) (by decide)
  rw [hlast, Nat.toDigits_of_lt_base (by omega)]
  rfl

/-- Digits have the order of their numbers. -/
lemma digitChar_cons_lt_iff {c d : Nat} {r s : Text} (hc : c < 10) (hd : d < 10) :
    c.digitChar :: r < d.digitChar :: s ↔ c < d ∨ c = d ∧ r < s := by
  have hlt : c.digitChar < d.digitChar ↔ c < d := by
    change c.digitChar.toNat < d.digitChar.toNat ↔ c < d
    rw [Nat.toNat_digitChar_of_lt_ten hc, Nat.toNat_digitChar_of_lt_ten hd]
    omega
  have heq : c.digitChar = d.digitChar ↔ c = d := by
    refine ⟨fun h => ?_, congrArg Nat.digitChar⟩
    rw [← Nat.toNat_digitChar_sub_48_of_lt_ten hc, h, Nat.toNat_digitChar_sub_48_of_lt_ten hd]
  rw [List.cons_lt_cons_iff, hlt, heq]

/-- A numeral that is wide enough has no zeros in front. -/
lemma padded_of_le_length {w n : Nat} (h : w ≤ (numeral n).length) : padded w n = numeral n := by
  rw [padded, List.leftpad, Nat.sub_eq_zero_of_le h, List.replicate_zero, List.nil_append]

lemma padded_one {n : Nat} (hn : n < 10) : padded 1 n = [n.digitChar] := by
  rw [padded_of_le_length Nat.length_toDigits_pos, numeral, Nat.toDigits_of_lt_base hn]

/-- Numerals of the same width have the order of their numbers. -/
theorem padded_append_lt_iff {w m n : Nat} {r s : Text} (hw : 0 < w) (hm : m < 10 ^ w)
    (hn : n < 10 ^ w) : padded w m ++ r < padded w n ++ s ↔ m < n ∨ m = n ∧ r < s := by
  induction w, hw using Nat.le_induction generalizing m n r s with
  | base =>
      rw [padded_one hm, padded_one hn]
      exact digitChar_cons_lt_iff hm hn
  | succ w hw ih =>
      -- the last digits belong to the texts behind, and decide where the others are the same
      have hm' : m / 10 < 10 ^ w := Nat.div_lt_of_lt_mul (by rwa [← Nat.pow_succ'])
      have hn' : n / 10 < 10 ^ w := Nat.div_lt_of_lt_mul (by rwa [← Nat.pow_succ'])
      rw [padded_succ m hw, padded_succ n hw, List.append_assoc, List.append_assoc, ih hm' hn',
        List.singleton_append, List.singleton_append,
        digitChar_cons_lt_iff (Nat.mod_lt m (by decide)) (Nat.mod_lt n (by decide))]
      by_cases h : r < s
      · simp only [h, and_true]
        omega
      · simp only [h, and_false, or_false]
        omega

lemma length_padded {w n : Nat} (hw : 0 < w) (hn : n < 10 ^ w) : (padded w n).length = w := by
  rw [padded, List.length_leftpad]
  exact Nat.max_eq_left ((Nat.length_toDigits_le_iff (by decide) hw).2 hn)

lemma isDigit_of_mem_padded {w n : Nat} {c : Char} (h : c ∈ padded w n) : c.isDigit = true := by
  rcases List.mem_append.1 h with h | h
  · rw [List.eq_of_mem_replicate h]
    rfl
  · exact isDigit_of_mem_numeral h

/-- Zeros in front of a numeral are read over. -/
theorem numeralValue?_padded (w n : Nat) : numeralValue? (padded w n) = some n := by
  have hne : (padded w n).isEmpty = false :=
    List.isEmpty_eq_false_iff.2 (List.append_ne_nil_of_right_ne_nil _ (numeral_ne_nil n))
  have hdigits : (padded w n).all Char.isDigit = true :=
    List.all_eq_true.2 fun c hc => isDigit_of_mem_padded hc
  have hvalue : Nat.ofDigitChars 10 (padded w n) 0 = n := by
    rw [padded, List.leftpad, Nat.ofDigitChars_append, Nat.ofDigitChars_replicate_zero,
      Nat.mul_zero, ofDigitChars_numeral]
  rw [numeralValue?, hne, hdigits, hvalue]
  rfl

end Text

end RecordQuery
