import RecordQuery.Form
import RecordQuery.Proofs.Text.Joined
import RecordQuery.Proofs.Text.Padded

/-!
Form encoding is read back.

* `Form.decode?` reads pairs of byte strings: it cuts a text at its ampersands and each part at its
  first equals sign, and turns plus signs into spaces and percent signs with two digits into bytes.
* `Form.encodeByte_cases` names the three forms of a byte. From them, encoded bytes are read back
  (`Form.decodeBytes?_encodeBytes`) and hold no separator (`Form.not_mem_encodeBytes`).
* `Form.decode?_encode`: so pairs are read back whatever their bytes are, and no two lists of pairs
  have the same encoding (`Form.encode_injective`).
-/

namespace RecordQuery

namespace Form

/-! ### Reading -/

/-- The value of a digit of base sixteen, with letters of either case. -/
def digitValue? (c : Char) : Option Nat :=
  if c.isDigit then some (c.toNat - 48)
  else if 'A' ≤ c ∧ c ≤ 'F' then some (c.toNat - 55)
  else if 'a' ≤ c ∧ c ≤ 'f' then some (c.toNat - 87)
  else none

/-- The bytes that an encoded text stands for. Only characters of one byte stand for themselves. -/
def decodeBytes? : Text → Option (List UInt8)
  | [] => some []
  | '%' :: c :: d :: rest => do
    let high ← digitValue? c
    let low ← digitValue? d
    (decodeBytes? rest).map (UInt8.ofNat (16 * high + low) :: ·)
  | c :: rest =>
    if c = '%' ∨ 0x80 ≤ c.toNat then none
    else (decodeBytes? rest).map ((if c = '+' then 0x20 else UInt8.ofNat c.toNat) :: ·)

/-- The pair that a text with an equals sign stands for. -/
def decodePair? (t : Text) : Option (List UInt8 × List UInt8) :=
  match t.dropWhile (· ≠ '=') with
  | [] => none
  | _ :: value => do
    return (← decodeBytes? (t.takeWhile (· ≠ '=')), ← decodeBytes? value)

/-- The pairs that a text stands for. The empty text stands for none. -/
def decode? (t : Text) : Option (List (List UInt8 × List UInt8)) :=
  if t = [] then some [] else (Text.segments '&' t).mapM decodePair?

/-! ### Bytes -/

/-- The characters that stand for themselves. -/
def IsPlain (c : Char) : Prop := c.isAlphanum = true ∨ c ∈ ("_.-~" : Text)

instance (c : Char) : Decidable (IsPlain c) := inferInstanceAs (Decidable (_ ∨ _))

lemma isUnreserved_iff (b : UInt8) : isUnreserved b = true ↔ IsPlain (Char.ofNat b.toNat) := by
  simp [isUnreserved, IsPlain, or_assoc]

lemma IsPlain.toNat_lt {c : Char} (h : IsPlain c) : c.toNat < 0x80 := by
  have hbound {d : UInt32} (hd : d.toNat < 0x80) (hle : c.val ≤ d) : c.toNat < 0x80 :=
    Nat.lt_of_le_of_lt (UInt32.le_iff_toNat_le.1 hle) hd
  rcases h with h | h
  · have hletter : ((c.isUpper || c.isLower) || c.isDigit) = true := h
    rw [Bool.or_eq_true, Bool.or_eq_true] at hletter
    rcases hletter with (hupper | hlower) | hdigit
    · have hle : 'A'.val ≤ c.val ∧ c.val ≤ 'Z'.val := of_decide_eq_true hupper
      exact hbound (by decide) hle.2
    · have hle : decide (c.val ≤ 'z'.val) = true := (Bool.and_eq_true_iff.1 hlower).2
      exact hbound (by decide) (of_decide_eq_true hle)
    · have hle : decide (c.val ≤ '9'.val) = true := (Bool.and_eq_true_iff.1 hdigit).2
      exact hbound (by decide) (of_decide_eq_true hle)
  · have hmarks : c = '_' ∨ c = '.' ∨ c = '-' ∨ c = '~' := by simpa using h
    rcases hmarks with rfl | rfl | rfl | rfl <;> decide

lemma IsPlain.ne {c d : Char} (hc : IsPlain c) (hd : ¬ IsPlain d) : c ≠ d := fun h => hd (h ▸ hc)

/-- The digits of base sixteen in capital letters. -/
lemma digitValue?_toUpper {n : Nat} (hn : n < 16) :
    digitValue? n.digitChar.toUpper = some n ∧ IsPlain n.digitChar.toUpper := by
  have hall : ∀ n < 16, digitValue? n.digitChar.toUpper = some n ∧ IsPlain n.digitChar.toUpper := by
    decide
  exact hall n hn

/-- The three ways in which a byte is encoded: as its character, as a plus sign, or by two digits. -/
lemma encodeByte_cases (b : UInt8) :
    (∃ c, encodeByte b = [c] ∧ IsPlain c ∧ UInt8.ofNat c.toNat = b)
      ∨ (encodeByte b = ['+'] ∧ b = 0x20)
      ∨ ∃ c d high low, encodeByte b = ['%', c, d] ∧ IsPlain c ∧ IsPlain d
        ∧ digitValue? c = some high ∧ digitValue? d = some low
        ∧ UInt8.ofNat (16 * high + low) = b := by
  have hbound : b.toNat < 256 := b.toNat_lt
  rw [encodeByte]
  split
  case isTrue h =>
    refine Or.inl ⟨_, rfl, (isUnreserved_iff b).1 h, ?_⟩
    have hvalid : b.toNat.isValidChar := Or.inl (by omega)
    have hchar : (Char.ofNat b.toNat).toNat = b.toNat := by
      rw [Char.ofNat, dif_pos hvalid]
      rfl
    rw [hchar, UInt8.ofNat_toNat]
  case isFalse h =>
    split
    case isTrue hspace => exact Or.inr (Or.inl ⟨rfl, hspace⟩)
    case isFalse hspace =>
      obtain ⟨hhigh, hhigh'⟩ := digitValue?_toUpper (n := b.toNat / 16) (by omega)
      obtain ⟨hlow, hlow'⟩ := digitValue?_toUpper (n := b.toNat % 16) (by omega)
      refine Or.inr (Or.inr ⟨_, _, _, _, ?_, hhigh', hlow', hhigh, hlow, ?_⟩)
      · rw [Text.hexadecimal_two hbound]
        rfl
      · rw [Nat.div_add_mod, UInt8.ofNat_toNat]

lemma decodeBytes?_encodeByte_append (b : UInt8) (rest : Text) :
    decodeBytes? (encodeByte b ++ rest) = (decodeBytes? rest).map (b :: ·) := by
  rcases encodeByte_cases b with ⟨c, h, hplain, hbyte⟩ | ⟨h, rfl⟩
    | ⟨c, d, high, low, h, -, -, hhigh, hlow, hbyte⟩
  · have hpercent : c ≠ '%' := hplain.ne (by decide)
    have hplus : c ≠ '+' := hplain.ne (by decide)
    have hascii := hplain.toNat_lt
    rw [h, List.singleton_append, decodeBytes?, if_neg (by simp [hpercent, hascii]), if_neg hplus,
      hbyte]
    exact fun _ _ _ hc _ => hpercent hc
  · rw [h]
    rfl
  · rw [h, ← hbyte]
    simp only [List.cons_append, List.nil_append, decodeBytes?, hhigh, hlow]
    rfl

/-- Encoded bytes are read back. -/
theorem decodeBytes?_encodeBytes (bytes : List UInt8) :
    decodeBytes? (encodeBytes bytes) = some bytes := by
  induction bytes with
  | nil => rfl
  | cons b bytes ih =>
      have hcons : encodeBytes (b :: bytes) = encodeByte b ++ encodeBytes bytes := rfl
      rw [hcons, decodeBytes?_encodeByte_append, ih, Option.map_some]

/-- Encoded bytes hold plain characters, plus signs and percent signs only. -/
lemma isPlain_of_mem_encodeBytes {bytes : List UInt8} {c : Char} (h : c ∈ encodeBytes bytes) :
    IsPlain c ∨ c = '+' ∨ c = '%' := by
  obtain ⟨b, -, hc⟩ := List.mem_flatMap.1 h
  rcases encodeByte_cases b with ⟨d, hd, hplain, -⟩ | ⟨hd, -⟩
    | ⟨d, e, _, _, hd, hplain, hplain', -⟩
  all_goals rw [hd] at hc
  · obtain rfl := List.mem_singleton.1 hc
    exact Or.inl hplain
  · exact Or.inr (Or.inl (List.mem_singleton.1 hc))
  · simp only [List.mem_cons, List.not_mem_nil, or_false] at hc
    rcases hc with rfl | rfl | rfl
    · exact Or.inr (Or.inr rfl)
    · exact Or.inl hplain
    · exact Or.inl hplain'

lemma ne_of_mem_encodeBytes {bytes : List UInt8} {c d : Char} (h : c ∈ encodeBytes bytes)
    (hd : ¬(IsPlain d ∨ d = '+' ∨ d = '%')) : c ≠ d :=
  fun heq => hd (heq ▸ isPlain_of_mem_encodeBytes h)

/-! ### Pairs -/

/-- A pair is cut at its first equals sign, as none is in front of it. -/
lemma decodePair?_encodePair (pair : List UInt8 × List UInt8) :
    decodePair? (encodePair pair) = some pair := by
  have hne : ∀ c ∈ encodeBytes pair.1, (c ≠ '=' : Bool) = true := fun c hc =>
    decide_eq_true (ne_of_mem_encodeBytes hc (by decide))
  have htake : (encodePair pair).takeWhile (· ≠ '=') = encodeBytes pair.1 := by
    rw [encodePair, List.takeWhile_append_of_pos hne, List.takeWhile_cons_of_neg (by simp),
      List.append_nil]
  have hdrop : (encodePair pair).dropWhile (· ≠ '=') = '=' :: encodeBytes pair.2 := by
    rw [encodePair, List.dropWhile_append_of_pos hne, List.dropWhile_cons_of_neg (by simp)]
  rw [decodePair?, hdrop, htake]
  simp only [decodeBytes?_encodeBytes]
  rfl

lemma mem_encodePair {pair : List UInt8 × List UInt8} {c : Char} (h : c ∈ encodePair pair) :
    IsPlain c ∨ c ∈ ("+%=" : Text) := by
  rcases List.mem_append.1 h with h | h
  · rcases isPlain_of_mem_encodeBytes h with h | rfl | rfl <;> simp [*]
  · rcases List.mem_cons.1 h with rfl | h
    · simp
    · rcases isPlain_of_mem_encodeBytes h with h | rfl | rfl <;> simp [*]

lemma encodePair_ne_nil (pair : List UInt8 × List UInt8) : encodePair pair ≠ [] :=
  List.append_ne_nil_of_right_ne_nil _ (List.cons_ne_nil _ _)

lemma encode_eq_nil_iff {pairs : List (List UInt8 × List UInt8)} : encode pairs = [] ↔ pairs = [] := by
  cases pairs with
  | nil => exact iff_of_true rfl rfl
  | cons pair pairs =>
      exact iff_of_false (Text.joined_ne_nil (encodePair_ne_nil pair) _) (List.cons_ne_nil _ _)

/-- The characters of an encoding: plain ones, two that stand for other bytes, and the separators. -/
lemma mem_encode {pairs : List (List UInt8 × List UInt8)} {c : Char} (h : c ∈ encode pairs) :
    IsPlain c ∨ c ∈ ("+%&=" : Text) := by
  rcases Text.mem_of_mem_joined h with h | ⟨part, hpart, h⟩
  · obtain rfl := List.mem_singleton.1 h
    exact Or.inr (by decide)
  · obtain ⟨pair, -, rfl⟩ := List.mem_map.1 hpart
    have hsub : ("+%=" : Text) ⊆ "+%&=" := by decide
    exact (mem_encodePair h).imp_right fun h => hsub h

lemma mapM_decodePair? (pairs : List (List UInt8 × List UInt8)) :
    (pairs.map encodePair).mapM decodePair? = some pairs := by
  induction pairs with
  | nil => rfl
  | cons pair pairs ih =>
      rw [List.map_cons, List.mapM_cons, decodePair?_encodePair, ih]
      rfl

/-- Pairs are read back, whatever bytes they hold. -/
theorem decode?_encode (pairs : List (List UInt8 × List UInt8)) :
    decode? (encode pairs) = some pairs := by
  by_cases hpairs : pairs = []
  · rw [hpairs]
    rfl
  · have hcut : Text.segments '&' (encode pairs) = pairs.map encodePair := by
      refine Text.segments_joined_of_not_mem (by simpa using hpairs) fun part hpart hmem => ?_
      obtain ⟨pair, -, rfl⟩ := List.mem_map.1 hpart
      exact absurd (mem_encodePair hmem) (by decide)
    rw [decode?, if_neg (mt encode_eq_nil_iff.1 hpairs), hcut, mapM_decodePair?]

/-- No two lists of pairs have the same encoding. -/
theorem encode_injective : Function.Injective encode := by
  intro pairs others h
  have hread := decode?_encode pairs
  rw [h, decode?_encode] at hread
  exact (Option.some.inj hread).symm

end Form

end RecordQuery
