import Mathlib.Data.List.Induction
import Mathlib.Data.List.Nodup
import RecordQuery.Text

/-!
Lists of texts in which each text stands only once.

* `Text.firstOccurrences` keeps each text where it stands first, told by the places of the list.
  `Text.eraseDups_eq_firstOccurrences`: that is what `List.eraseDups` does.
* `Text.eraseDups_filter` and `Text.eraseDups_append`: texts that are left out play no part for the
  others, and what is put behind a list adds what is new.
-/

namespace RecordQuery

/-- The texts of a list, each only at the place where it stands first. -/
def Text.firstOccurrences (ts : List Text) : List Text :=
  (ts.zipIdx.filter fun entry => !(ts.take entry.2).contains entry.1).map Prod.fst

lemma Text.firstOccurrences_concat (ts : List Text) (t : Text) :
    firstOccurrences (ts ++ [t]) = firstOccurrences ts ++ if t ∈ ts then [] else [t] := by
  have hbefore : (ts.zipIdx.filter fun entry => !((ts ++ [t]).take entry.2).contains entry.1)
      = ts.zipIdx.filter fun entry => !(ts.take entry.2).contains entry.1 := by
    refine List.filter_congr fun entry hentry => ?_
    have hplace : entry.2 ≤ ts.length := by
      have := List.snd_lt_of_mem_zipIdx hentry
      omega
    simp only [List.take_append_of_le_length hplace]
  rw [firstOccurrences, List.zipIdx_append, List.filter_append, List.map_append, hbefore]
  by_cases h : t ∈ ts <;> simp [firstOccurrences, h]

lemma Text.eraseDups_concat (ts : List Text) (t : Text) :
    (ts ++ [t]).eraseDups = ts.eraseDups ++ if t ∈ ts then [] else [t] := by
  rw [List.eraseDups_append]
  by_cases h : t ∈ ts <;> simp [List.removeAll, h, List.eraseDups_cons]

/-- Each text is kept where it stands first. -/
lemma Text.eraseDups_eq_firstOccurrences (ts : List Text) : ts.eraseDups = firstOccurrences ts := by
  induction ts using List.reverseRecOn with
  | nil => rfl
  | append_singleton ts t ih => rw [eraseDups_concat, firstOccurrences_concat, ih]

/-- A text that is left out plays no part for the others. -/
lemma Text.eraseDups_filter (p : Text → Bool) (ts : List Text) :
    (ts.filter p).eraseDups = ts.eraseDups.filter p := by
  induction ts using List.reverseRecOn with
  | nil => rfl
  | append_singleton ts t ih =>
      rw [eraseDups_concat, List.filter_append, List.filter_append, ← ih]
      by_cases hp : p t = true
      · have hmem : t ∈ ts.filter p ↔ t ∈ ts := by simp [hp]
        rw [List.filter_singleton, hp, cond_true, eraseDups_concat]
        by_cases ht : t ∈ ts <;> simp [hp, ht]
      · by_cases ht : t ∈ ts <;> simp [hp, ht]

lemma Text.nodup_eraseDups (ts : List Text) : ts.eraseDups.Nodup := by
  induction ts using List.reverseRecOn with
  | nil => exact List.nodup_nil
  | append_singleton ts t ih =>
      rw [eraseDups_concat]
      split
      case isTrue => rwa [List.append_nil]
      case isFalse h =>
        exact ih.append (List.nodup_singleton t)
          (List.disjoint_singleton.2 fun hmem => h (List.mem_eraseDups.1 hmem))

/-- What is put behind adds the texts that are new. -/
lemma Text.eraseDups_append (ts us : List Text) :
    (ts ++ us).eraseDups = ts.eraseDups ++ us.eraseDups.filter (· ∉ ts.eraseDups) := by
  rw [List.eraseDups_append, List.removeAll, eraseDups_filter]
  refine congrArg _ (List.filter_congr fun t _ => ?_)
  simp only [List.mem_eraseDups, List.elem_eq_mem, decide_not]

end RecordQuery
