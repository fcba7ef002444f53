import Mathlib.Algebra.BigOperators.Group.List.Basic
import Mathlib.Algebra.GroupWithZero.Nat
import Mathlib.Order.Monotone.Basic
import Mathlib.Tactic.Common
import RecordQuery.Calendar.Date

/-!
The numbers of the days of the calendar.

* `Date.ofNumber_number`, `Date.number_ofNumber` and `Date.valid_ofNumber`: the dates and the
  numbers below `Date.daysInCalendar` belong to each other one by one. A day is found in two steps,
  the years before it (`Date.daysInYears_yearsBefore`) and the months of its year before it
  (`Date.monthsBefore_spec`).
* `Date.number_lt_iff`: the numbers have the order of the calendar (`Date.Precedes`).
* `Date.number_tomorrow`: they go up by one from each day to the next, so that they count days.
-/

namespace RecordQuery

namespace Date

/-! ### Years -/

/-- The number of days in a year. -/
def daysInYear (year : Nat) : Nat := if isLeap year then 366 else 365

lemma succ_div (n k : Nat) : (n + 1) / k = n / k + if (n + 1) % k = 0 then 1 else 0 := by
  rw [Nat.succ_div]
  simp only [Nat.dvd_iff_mod_eq_zero]

lemma daysInYears_succ (years : Nat) :
    daysInYears (years + 1) = daysInYears years + daysInYear (years + 1) := by
  have h100 : (years + 1) % 400 = 0 → (years + 1) % 100 = 0 := by omega
  have h4 : (years + 1) % 100 = 0 → (years + 1) % 4 = 0 := by omega
  have hle : years / 100 ≤ years := Nat.div_le_self years 100
  simp only [daysInYears, daysInYear, isLeap, succ_div, decide_eq_true_eq]
  split_ifs <;> omega

lemma daysInYears_strictMono : StrictMono daysInYears := by
  refine strictMono_nat_of_lt_succ fun years => ?_
  rw [daysInYears_succ, daysInYear]
  split <;> omega

/-- A day lies behind the full years before it, and before the end of the next one. -/
lemma daysInYears_yearsBefore (n : Nat) :
    daysInYears (yearsBefore n) ≤ n ∧ n < daysInYears (yearsBefore n + 1) := by
  have hlow : daysInYears (n * 400 / 146097 - 1) ≤ n := by
    simp only [daysInYears]
    omega
  have hhigh : n < daysInYears (n * 400 / 146097 + 1 + 1) := by
    simp only [daysInYears]
    omega
  rw [yearsBefore]
  split
  case isTrue h =>
    have hpos : n * 400 / 146097 ≠ 0 := fun h0 => by
      rw [h0] at h
      exact Nat.not_lt_zero n h
    refine ⟨hlow, ?_⟩
    rwa [Nat.sub_add_cancel (by omega)]
  case isFalse h =>
    split
    case isTrue h' => exact ⟨h', hhigh⟩
    case isFalse h' => exact ⟨by omega, by omega⟩

/-- No other number of years does that. -/
lemma yearsBefore_eq {n years : Nat} (hlow : daysInYears years ≤ n)
    (hhigh : n < daysInYears (years + 1)) : yearsBefore n = years := by
  obtain ⟨hlow', hhigh'⟩ := daysInYears_yearsBefore n
  have h1 : years < yearsBefore n + 1 := daysInYears_strictMono.lt_iff_lt.1 (hlow.trans_lt hhigh')
  have h2 : yearsBefore n < years + 1 := daysInYears_strictMono.lt_iff_lt.1 (hlow'.trans_lt hhigh)
  omega

/-! ### Months -/

lemma sum_monthLengths (year : Nat) : (monthLengths year).sum = daysInYear year := by
  rw [monthLengths, daysInYear]
  split <;> rfl

lemma length_monthLengths (year : Nat) : (monthLengths year).length = 12 := rfl

section Months

variable {lengths : List Nat} {m d length : Nat}

lemma monthsBefore_cons_of_le {rest : Nat} (h : length ≤ rest) :
    monthsBefore (length :: lengths) rest
      = ((monthsBefore lengths (rest - length)).1 + 1,
        (monthsBefore lengths (rest - length)).2) := by
  rw [monthsBefore, if_neg (by omega)]

/-- The full months before a day of the year and the days that remain make up its number, and there
are less days than the month has. -/
lemma monthsBefore_spec {rest : Nat} (h : rest < lengths.sum) :
    ∃ length, lengths[(monthsBefore lengths rest).1]? = some length
      ∧ (monthsBefore lengths rest).2 < length
      ∧ (lengths.take (monthsBefore lengths rest).1).sum + (monthsBefore lengths rest).2
        = rest := by
  induction lengths generalizing rest with
  | nil => exact absurd h (Nat.not_lt_zero rest)
  | cons first lengths ih =>
      rw [List.sum_cons] at h
      by_cases hlt : rest < first
      · rw [monthsBefore, if_pos hlt]
        exact ⟨first, rfl, hlt, by simp⟩
      · have hrest : rest - first < lengths.sum := by omega
        obtain ⟨length, hget, hdays, hsum⟩ := ih hrest
        rw [monthsBefore_cons_of_le (by omega), List.getElem?_cons_succ, List.take_succ_cons,
          List.sum_cons]
        exact ⟨length, hget, hdays, by omega⟩

/-- The days in the first months, and less than the next month has behind them. -/
lemma monthsBefore_eq (hm : lengths[m]? = some length) (hd : d < length) :
    monthsBefore lengths ((lengths.take m).sum + d) = (m, d) := by
  induction lengths generalizing m with
  | nil => cases hm
  | cons first lengths ih =>
      cases m with
      | zero =>
          obtain rfl : first = length := by simpa using hm
          rw [List.take_zero, List.sum_nil, Nat.zero_add, monthsBefore, if_pos hd]
      | succ m =>
          have hrest : lengths[m]? = some length := by simpa using hm
          have hsub : first + (lengths.take m).sum + d - first = (lengths.take m).sum + d := by
            omega
          rw [List.take_succ_cons, List.sum_cons, monthsBefore_cons_of_le (by omega), hsub,
            ih hrest]

/-- The days of the months before a month that comes later. -/
lemma sum_take_add_le {n : Nat} (hm : lengths[m]? = some length) (h : m < n) :
    (lengths.take m).sum + length ≤ (lengths.take n).sum := by
  induction lengths generalizing m n with
  | nil => cases hm
  | cons first lengths ih =>
      obtain ⟨n, rfl⟩ := Nat.exists_eq_add_one_of_ne_zero (Nat.ne_zero_of_lt h)
      rw [List.take_succ_cons, List.sum_cons]
      cases m with
      | zero =>
          obtain rfl : first = length := by simpa using hm
          simp
      | succ m =>
          have hsum := ih (by simpa using hm) (Nat.lt_of_succ_lt_succ h)
          rw [List.take_succ_cons, List.sum_cons]
          omega

end Months

/-! ### Days -/

/-- The days of the year before a date. -/
def dayOfYear (d : Date) : Nat := ((monthLengths d.year).take (d.month - 1)).sum + (d.day - 1)

lemma number_eq (d : Date) : d.number = daysInYears (d.year - 1) + d.dayOfYear := by
  rw [number, dayOfYear, ← List.sum_eq_foldl, Nat.add_assoc]

namespace Valid

variable {d : Date}

lemma getElem?_monthLengths (h : d.Valid) :
    1 ≤ d.month ∧ (monthLengths d.year)[d.month - 1]? = some (daysIn d.year d.month) := by
  obtain ⟨-, -, hday, hdays⟩ := h
  have hmonth : d.month ≠ 0 := fun h0 => by
    rw [daysIn, if_pos h0] at hdays
    omega
  refine ⟨by omega, ?_⟩
  rw [daysIn, if_neg hmonth] at hdays ⊢
  rw [List.getD_eq_getElem?_getD] at hdays ⊢
  cases hget : (monthLengths d.year)[d.month - 1]? with
  | none =>
      rw [hget, Option.getD_none] at hdays
      omega
  | some length => rfl

lemma month_le (h : d.Valid) : d.month ≤ 12 := by
  obtain ⟨hpos, hget⟩ := h.getElem?_monthLengths
  have hlt := (List.getElem?_eq_some_iff.1 hget).1
  rw [length_monthLengths] at hlt
  omega

lemma day_le (h : d.Valid) : d.day ≤ 31 := by
  have hlengths : ∀ length ∈ monthLengths d.year, length ≤ 31 := by
    rw [monthLengths]
    split <;> decide
  exact h.2.2.2.trans (hlengths _ (List.mem_of_getElem? h.getElem?_monthLengths.2))

lemma dayOfYear_lt (h : d.Valid) : d.dayOfYear < daysInYear d.year := by
  obtain ⟨-, hget⟩ := h.getElem?_monthLengths
  obtain ⟨-, -, hday, hdays⟩ := h
  have hlt := (List.getElem?_eq_some_iff.1 hget).1
  have hsum := sum_take_add_le hget hlt
  rw [List.take_length, sum_monthLengths] at hsum
  rw [dayOfYear]
  omega

/-- The number of a date lies within its year. -/
lemma number_bounds (h : d.Valid) :
    daysInYears (d.year - 1) ≤ d.number ∧ d.number < daysInYears d.year := by
  have hlt := h.dayOfYear_lt
  obtain ⟨years, hyear⟩ := Nat.exists_eq_add_one_of_ne_zero (Nat.ne_zero_of_lt h.1)
  rw [number_eq, hyear, daysInYears_succ, Nat.add_sub_cancel]
  rw [hyear] at hlt
  omega

end Valid

/-- The date with the number of a date is that date. -/
theorem ofNumber_number {d : Date} (h : d.Valid) : ofNumber d.number = d := by
  obtain ⟨hmonth, hget⟩ := h.getElem?_monthLengths
  obtain ⟨hlow, hhigh⟩ := h.number_bounds
  obtain ⟨hyear, -, hday, hdays⟩ := h
  have hsucc : d.year - 1 + 1 = d.year := Nat.sub_add_cancel hyear
  have hyears : yearsBefore d.number = d.year - 1 := yearsBefore_eq hlow (by rwa [hsucc])
  have hrest : d.number - daysInYears (d.year - 1)
      = ((monthLengths d.year).take (d.month - 1)).sum + (d.day - 1) := by
    rw [number_eq, Nat.add_sub_cancel_left, dayOfYear]
  have hmonths := monthsBefore_eq (d := d.day - 1) hget (by omega)
  rw [ofNumber, hyears, hsucc, hrest, hmonths]
  simp only [Nat.sub_add_cancel hmonth, Nat.sub_add_cancel hday]

/-- The parts of the date with a number: the year holds the day, the month is one of the year, and
the day is one of the month. -/
lemma ofNumber_spec (n : Nat) :
    (ofNumber n).year = yearsBefore n + 1 ∧ 1 ≤ (ofNumber n).day
      ∧ (ofNumber n).day ≤ daysIn (ofNumber n).year (ofNumber n).month
      ∧ daysInYears (yearsBefore n) + (ofNumber n).dayOfYear = n := by
  obtain ⟨hlow, hhigh⟩ := daysInYears_yearsBefore n
  rw [daysInYears_succ, ← sum_monthLengths] at hhigh
  have hrest : n - daysInYears (yearsBefore n) < (monthLengths (yearsBefore n + 1)).sum := by omega
  obtain ⟨length, hget, hdays, hsum⟩ := monthsBefore_spec hrest
  refine ⟨rfl, Nat.le_add_left 1 _, ?_, ?_⟩
  · simp only [ofNumber, Nat.add_sub_cancel, daysIn, Nat.add_one_ne_zero, if_false,
      List.getD_eq_getElem?_getD, hget, Option.getD_some]
    exact hdays
  · simp only [ofNumber, Nat.add_sub_cancel, dayOfYear, hsum]
    exact Nat.add_sub_cancel' hlow

/-- A number is that of its date. -/
theorem number_ofNumber (n : Nat) : (ofNumber n).number = n := by
  obtain ⟨hyear, -, -, hsum⟩ := ofNumber_spec n
  rw [number_eq, hyear, Nat.add_sub_cancel, hsum]

/-- The numbers below that of the first day behind the calendar are those of its dates. -/
theorem valid_ofNumber {n : Nat} (h : n < daysInCalendar) : (ofNumber n).Valid := by
  obtain ⟨hyear, hday, hdays, -⟩ := ofNumber_spec n
  have hyears : yearsBefore n < 9999 := by
    have hlow := (daysInYears_yearsBefore n).1
    exact daysInYears_strictMono.lt_iff_lt.1 (hlow.trans_lt h)
  exact ⟨by omega, by omega, hday, hdays⟩

lemma Valid.number_lt {d : Date} (h : d.Valid) : d.number < daysInCalendar :=
  h.number_bounds.2.trans_le (daysInYears_strictMono.monotone h.2.1)

/-! ### Order -/

/-- A date comes before another one in the calendar. -/
def Precedes (d e : Date) : Prop :=
  d.year < e.year ∨ d.year = e.year ∧ (d.month < e.month ∨ d.month = e.month ∧ d.day < e.day)

lemma number_lt_of_precedes {d e : Date} (hd : d.Valid) (he : e.Valid) (h : d.Precedes e) :
    d.number < e.number := by
  obtain ⟨hmonth, hget⟩ := hd.getElem?_monthLengths
  rcases h with hyear | ⟨hyear, h⟩
  · calc d.number < daysInYears d.year := hd.number_bounds.2
      _ ≤ daysInYears (e.year - 1) := daysInYears_strictMono.monotone (by omega)
      _ ≤ e.number := he.number_bounds.1
  · have hday := hd.2.2.1
    have hdays := hd.2.2.2
    have heday := he.2.2.1
    rw [number_eq, number_eq, hyear, dayOfYear, dayOfYear, hyear]
    rw [hyear] at hget hdays
    rcases h with h | ⟨h, hlt⟩
    · have hsum := sum_take_add_le (n := e.month - 1) hget (by omega)
      omega
    · rw [h]
      omega

/-- Of two dates one precedes the other. -/
lemma eq_of_not_precedes {d e : Date} (h : ¬ d.Precedes e) (h' : ¬ e.Precedes d) : d = e := by
  obtain ⟨year, month, day⟩ := d
  obtain ⟨year', month', day'⟩ := e
  simp only [Precedes] at h h'
  obtain rfl : year = year' := by omega
  obtain rfl : month = month' := by omega
  obtain rfl : day = day' := by omega
  rfl

/-- The numbers of dates have the order of the calendar. -/
theorem number_lt_iff {d e : Date} (hd : d.Valid) (he : e.Valid) :
    d.number < e.number ↔ d.Precedes e := by
  refine ⟨fun h => ?_, number_lt_of_precedes hd he⟩
  by_contra hnot
  have hback : ¬ e.Precedes d := fun h' => (number_lt_of_precedes he hd h').not_gt h
  obtain rfl := eq_of_not_precedes hnot hback
  exact h.false

/-- The date behind a date. -/
def tomorrow (d : Date) : Date :=
  if d.day < daysIn d.year d.month then { d with day := d.day + 1 }
  else if d.month < 12 then { d with month := d.month + 1, day := 1 }
  else { year := d.year + 1, month := 1, day := 1 }

/-- Each day has the number behind that of the day before. -/
theorem number_tomorrow {d : Date} (h : d.Valid) : d.tomorrow.number = d.number + 1 := by
  obtain ⟨hmonth, hget⟩ := h.getElem?_monthLengths
  have hlast := h.month_le
  obtain ⟨hyear, -, hday, hdays⟩ := h
  have hsum : ((monthLengths d.year).take d.month).sum
      = ((monthLengths d.year).take (d.month - 1)).sum + daysIn d.year d.month := by
    conv_lhs => rw [← Nat.sub_add_cancel hmonth]
    rw [List.take_add_one, hget, Option.toList_some, List.sum_append, List.sum_singleton]
  rw [tomorrow]
  split
  case isTrue hlt =>
    simp only [number_eq, dayOfYear]
    omega
  case isFalse hge =>
    split
    case isTrue hlt =>
      simp only [number_eq, dayOfYear, Nat.add_sub_cancel, hsum]
      omega
    case isFalse hlt =>
      -- behind the last month the days of the whole year are counted
      have hmonths : d.month = (monthLengths d.year).length := by
        rw [length_monthLengths]
        omega
      have hyears := daysInYears_succ (d.year - 1)
      rw [Nat.sub_add_cancel hyear, ← sum_monthLengths, ← List.take_length (l := monthLengths d.year),
        ← hmonths, hsum] at hyears
      simp only [number_eq, dayOfYear, Nat.add_sub_cancel, hyears, Nat.sub_self, List.take_zero,
        List.sum_nil]
      omega

end Date

end RecordQuery
