import Mathlib.Tactic.Common
import RecordQuery.Filter.Operator

/-!
The words of the filter language: which characters they are made of, and that each word stands for
one thing only.

* `Operator.ofText?_eq_some_iff` and `Moment.ofText?_eq_some_iff`: a sign is that of one operator,
  and a name that of one moment.
-/

namespace RecordQuery

namespace Operator

/-- The characters of which signs are made. -/
def signs : List Char := ['=', '!', '<', '>', '~', '?']

lemma mem_signs_of_mem_text {op : Operator} {c : Char} (h : c ∈ op.text) : c ∈ signs := by
  obtain ⟨any, relation⟩ := op
  have hall : (text ⟨any, relation⟩).all (· ∈ signs) = true := by
    cases any <;> cases relation <;> decide
  exact of_decide_eq_true (List.all_eq_true.1 hall c h)

lemma text_ne_nil (op : Operator) : op.text ≠ [] := by
  obtain ⟨any, relation⟩ := op
  cases any <;> cases relation <;> decide

/-- A sign is that of one operator. -/
theorem ofText?_eq_some_iff {t : Text} {op : Operator} : ofText? t = some op ↔ t = op.text := by
  constructor
  · intro h
    have hfound := List.find?_some h
    exact (of_decide_eq_true hfound).symm
  · rintro rfl
    obtain ⟨any, relation⟩ := op
    cases any <;> cases relation <;> rfl

end Operator

namespace Moment

/-- A name is an at sign with letters behind it. -/
lemma eq_cons_text (m : Moment) :
    ∃ letters : Text, m.text = '@' :: letters ∧ ∀ c ∈ letters, c.isAlpha = true := by
  have hletters : m.text.tail.all Char.isAlpha = true := by cases m <;> decide
  exact ⟨m.text.tail, by cases m <;> rfl, List.all_eq_true.1 hletters⟩

lemma eq_or_isAlpha_of_mem_text {m : Moment} {c : Char} (h : c ∈ m.text) :
    c = '@' ∨ c.isAlpha = true := by
  obtain ⟨letters, htext, hletters⟩ := m.eq_cons_text
  rw [htext] at h
  exact (List.mem_cons.1 h).imp_right (hletters c)

/-- A name is that of one moment. -/
theorem ofText?_eq_some_iff {t : Text} {m : Moment} : ofText? t = some m ↔ t = m.text := by
  constructor
  · intro h
    have hfound := List.find?_some h
    exact (of_decide_eq_true hfound).symm
  · rintro rfl
    cases m <;> decide

end Moment

end RecordQuery
