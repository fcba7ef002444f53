import RecordQuery.Calendar.DateTime
import RecordQuery.Proofs.Calendar.Date

/-!
The instants that dates with a time denote.

* `DateTime.instant` counts the microseconds from the start of the calendar, in universal time, by
  the numbers of its days, which go up by one from each day to the next (`Date.number_tomorrow`).
* `DateTime.Reads` says that a date with a time is how another one's instant reads in universal time.
  There is one such reading at most (`Reads.unique`), and `DateTime.toUniversal?` finds it
  (`toUniversal?_eq_some_iff`) or fails exactly if the instant is outside of the calendar
  (`toUniversal?_eq_none_iff`).
* `DateTime.truncated` cuts a reading to milliseconds, which rounds its instant down
  (`Reads.reads_truncated`).
-/

namespace RecordQuery

namespace TimeOfDay

lemma seconds_lt {t : TimeOfDay} (h : t.Valid) : t.seconds < 86400 := by
  obtain ⟨hhour, hminute, hsecond, -⟩ := h
  rw [seconds]
  omega

lemma seconds_ofSeconds (seconds microsecond : Nat) :
    (ofSeconds seconds microsecond).seconds = seconds := by
  simp only [TimeOfDay.seconds, ofSeconds]
  omega

lemma valid_ofSeconds {seconds microsecond : Nat} (h : seconds < 86400)
    (hmicrosecond : microsecond < 1000000) : (ofSeconds seconds microsecond).Valid := by
  refine ⟨?_, ?_, ?_, hmicrosecond⟩ <;> simp only [ofSeconds] <;> omega

lemma ofSeconds_seconds {t : TimeOfDay} (h : t.Valid) :
    ofSeconds t.seconds t.microsecond = t := by
  obtain ⟨hour, minute, second, microsecond⟩ := t
  obtain ⟨-, hminute, hsecond, -⟩ := h
  simp only at hminute hsecond
  simp only [ofSeconds, seconds, mk.injEq, and_true]
  omega

end TimeOfDay

namespace DateTime

instance (t : DateTime) : Decidable t.Valid := inferInstanceAs (Decidable (_ ∧ _ ∧ _))

/-- The microseconds from the start of the calendar, in universal time. -/
def instant (t : DateTime) : Int := t.seconds * 1000000 + t.time.microsecond

/-- The first moment of the calendar. -/
def calendarStart : DateTime := ⟨⟨1, 1, 1⟩, .midnight, none⟩

/-- The last microsecond of the calendar. -/
def calendarEnd : DateTime := ⟨⟨9999, 12, 31⟩, ⟨23, 59, 59, 999999⟩, none⟩

/-- The date and the time are how an instant reads in universal time. -/
structure Reads (u : DateTime) (instant : Int) : Prop where
  valid : u.Valid
  offset_eq : u.offset = none
  instant_eq : u.instant = instant

lemma instant_calendarStart : calendarStart.instant = 0 := by decide

lemma instant_calendarEnd :
    calendarEnd.instant = Date.daysInCalendar * 86400 * 1000000 - 1 := by decide

section Reading

variable {t u v : DateTime} {i : Int}

lemma seconds_of_offset_eq_none (h : u.offset = none) :
    u.seconds = (u.date.number * 86400 + u.time.seconds : Nat) := by
  rw [seconds, h, Option.getD_none, Int.sub_zero]

namespace Reads

lemma instant_of_parts (h : u.Reads i) :
    i = ((u.date.number * 86400 + u.time.seconds) * 1000000 + u.time.microsecond : Nat) := by
  rw [← h.instant_eq, instant, seconds_of_offset_eq_none h.offset_eq]
  omega

/-- The day, the second of the day and its fraction are parts of the instant. -/
lemma parts (h : u.Reads i) :
    u.date.number = i.toNat / 86400000000 ∧ u.time.seconds = i.toNat / 1000000 % 86400
      ∧ u.time.microsecond = i.toNat % 1000000 := by
  have hparts := h.instant_of_parts
  have hseconds := TimeOfDay.seconds_lt h.valid.2.1
  have hmicrosecond := h.valid.2.1.2.2.2
  omega

/-- An instant reads in one way only. -/
theorem unique (h : u.Reads i) (h' : v.Reads i) : u = v := by
  obtain ⟨hnumber, hseconds, hmicrosecond⟩ := h.parts
  obtain ⟨hnumber', hseconds', hmicrosecond'⟩ := h'.parts
  have hdate : u.date = v.date := by
    rw [← Date.ofNumber_number h.valid.1, hnumber, ← hnumber', Date.ofNumber_number h'.valid.1]
  have htime : u.time = v.time := by
    rw [← TimeOfDay.ofSeconds_seconds h.valid.2.1, hseconds, hmicrosecond, ← hseconds',
      ← hmicrosecond', TimeOfDay.ofSeconds_seconds h'.valid.2.1]
  obtain ⟨date, time, offset⟩ := u
  obtain ⟨date', time', offset'⟩ := v
  simp only [mk.injEq]
  exact ⟨hdate, htime, h.offset_eq.trans h'.offset_eq.symm⟩

lemma mem_calendar (h : u.Reads i) : calendarStart.instant ≤ i ∧ i ≤ calendarEnd.instant := by
  have hparts := h.instant_of_parts
  have hnumber := h.valid.1.number_lt
  have hseconds := TimeOfDay.seconds_lt h.valid.2.1
  have hmicrosecond := h.valid.2.1.2.2.2
  rw [instant_calendarStart, instant_calendarEnd]
  omega

end Reads

/-- The reading that belongs to a second of the calendar. -/
lemma reads_ofNumber {second : Int} {microsecond : Nat} (hlow : 0 ≤ second)
    (hhigh : second < Date.daysInCalendar * 86400) (hmicrosecond : microsecond < 1000000) :
    Reads
      { date := Date.ofNumber (second.toNat / 86400)
        time := TimeOfDay.ofSeconds (second.toNat % 86400) microsecond
        offset := none }
      (second * 1000000 + microsecond) := by
  have hday : second.toNat / 86400 < Date.daysInCalendar := by omega
  have hsecond : second.toNat % 86400 < 86400 := Nat.mod_lt _ (by decide)
  refine ⟨⟨Date.valid_ofNumber hday, TimeOfDay.valid_ofSeconds hsecond hmicrosecond, nofun⟩, rfl, ?_⟩
  rw [instant, seconds_of_offset_eq_none rfl, Date.number_ofNumber, TimeOfDay.seconds_ofSeconds]
  simp only [TimeOfDay.ofSeconds]
  omega

/-- The calendar holds a reading of every instant between its ends. -/
theorem exists_reads_iff :
    (∃ u : DateTime, u.Reads i) ↔ calendarStart.instant ≤ i ∧ i ≤ calendarEnd.instant := by
  refine ⟨fun ⟨_, hu⟩ => hu.mem_calendar, fun ⟨hlow, hhigh⟩ => ?_⟩
  rw [instant_calendarStart] at hlow
  rw [instant_calendarEnd] at hhigh
  have hsecond : 0 ≤ i / 1000000 ∧ i / 1000000 < Date.daysInCalendar * 86400 := by omega
  have hmicrosecond : (i % 1000000).toNat < 1000000 := by omega
  have hi : i / 1000000 * 1000000 + ((i % 1000000).toNat : Int) = i := by omega
  exact ⟨_, hi ▸ reads_ofNumber hsecond.1 hsecond.2 hmicrosecond⟩

/-- The reading is found where the calendar holds the instant, and otherwise there is none. -/
lemma toUniversal?_cases (h : t.Valid) :
    (∃ u, t.toUniversal? = some u ∧ u.Reads t.instant)
      ∨ (t.toUniversal? = none
        ∧ ¬ (calendarStart.instant ≤ t.instant ∧ t.instant ≤ calendarEnd.instant)) := by
  have hmicrosecond := h.2.1.2.2.2
  rw [toUniversal?]
  split
  case h_1 hnone => exact Or.inl ⟨t, rfl, h, hnone, rfl⟩
  case h_2 =>
    split
    case isTrue hin => exact Or.inl ⟨_, rfl, reads_ofNumber hin.1 hin.2 hmicrosecond⟩
    case isFalse hout =>
      refine Or.inr ⟨rfl, ?_⟩
      rw [instant_calendarStart, instant_calendarEnd, instant]
      omega

/-- The date and the time that are found are how the instant reads. -/
theorem toUniversal?_eq_some_iff (h : t.Valid) :
    t.toUniversal? = some u ↔ u.Reads t.instant := by
  rcases toUniversal?_cases h with ⟨v, hv, hreads⟩ | ⟨hnone, hout⟩
  · rw [hv, Option.some.injEq]
    exact ⟨fun heq => heq ▸ hreads, hreads.unique⟩
  · rw [hnone]
    exact ⟨nofun, fun hreads => absurd hreads.mem_calendar hout⟩

/-- Only the instant counts. -/
lemma toUniversal?_congr {s : DateTime} (ht : t.Valid) (hs : s.Valid)
    (h : t.instant = s.instant) : t.toUniversal? = s.toUniversal? := by
  refine Option.ext fun u => ?_
  rw [toUniversal?_eq_some_iff ht, toUniversal?_eq_some_iff hs, h]

/-- None are found exactly if the instant is outside of the calendar. -/
theorem toUniversal?_eq_none_iff (h : t.Valid) :
    t.toUniversal? = none
      ↔ t.instant < calendarStart.instant ∨ calendarEnd.instant < t.instant := by
  have hnone : t.toUniversal? = none ↔ ¬ ∃ u : DateTime, u.Reads t.instant := by
    simp only [Option.eq_none_iff_forall_ne_some, ne_eq, toUniversal?_eq_some_iff h, not_exists]
  rw [hnone, exists_reads_iff]
  omega

end Reading

/-! ### Milliseconds -/

/-- The date and the time without what is less than a millisecond. -/
def truncated (u : DateTime) : DateTime :=
  { u with time := { u.time with microsecond := u.time.microsecond / 1000 * 1000 } }

/-- Cutting a reading rounds its instant down. -/
lemma Reads.reads_truncated {u : DateTime} {i : Int} (h : u.Reads i) :
    u.truncated.Reads (i / 1000 * 1000) := by
  obtain ⟨hdate, ⟨hhour, hminute, hsecond, hmicrosecond⟩, hoffset⟩ := h.valid
  have hcut : u.time.microsecond / 1000 * 1000 < 1000000 := by omega
  refine ⟨⟨hdate, ⟨hhour, hminute, hsecond, hcut⟩, hoffset⟩, h.offset_eq, ?_⟩
  have hparts := h.instant_of_parts
  have hseconds : u.truncated.seconds = u.seconds := rfl
  rw [instant, hseconds, seconds_of_offset_eq_none h.offset_eq, truncated, hparts]
  simp only
  omega

end DateTime

end RecordQuery
