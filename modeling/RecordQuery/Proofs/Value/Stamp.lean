import RecordQuery.Filter.Literal
import RecordQuery.Proofs.Calendar.Instant
import RecordQuery.Proofs.Text.Field
import RecordQuery.Proofs.Text.Quoted

/-!
The literals of dates: what they denote, how they are ordered and how they are laid out.

* `DateTime.quoted` is the literal of a reading in universal time as a row of fields, and
  `DateTime.ofLiteral?` reads such a literal. A value that is a date, with a time or without, has the
  literal of the reading of its instant (`Value.literal_eq_ok_iff`).
* `Value.literal_denotes_instant`: a literal denotes the instant of its date, rounded down to a
  millisecond, and only instants outside of the calendar have none.
* `Value.literal_lt_iff`: from the year 1000 on, literals have the order of their instants.
* `Value.literal_hasShape_iff`: from the year 1000 on, and only there, literals have the layout of a
  year in four digits.
-/

namespace RecordQuery

open Text

namespace DateTime

/-- The fields of a stamp behind the year. -/
def fieldsBehindYear (u : DateTime) : List Field :=
  [⟨2, u.date.month, '-'⟩, ⟨2, u.date.day, ' '⟩, ⟨2, u.time.hour, ':'⟩, ⟨2, u.time.minute, ':'⟩,
    ⟨2, u.time.second, '.'⟩, ⟨3, u.time.microsecond / 1000, 'Z'⟩]

/-- The fields of a stamp, with the year filled up to a width. -/
def stampFields (yearWidth : Nat) (u : DateTime) : List Field :=
  ⟨yearWidth, u.date.year, '-'⟩ :: u.fieldsBehindYear

/-- A stamp is written field by field, the year without zeros in front. -/
lemma stamp_eq (u : DateTime) : stamp u.date u.time = fieldsText (u.stampFields 0) := by
  have hyear : padded 0 u.date.year = numeral u.date.year := padded_of_le_length (Nat.zero_le _)
  simp [stamp, TimeOfDay.clock, stampFields, fieldsBehindYear, fieldsText, Field.text, hyear]

/-- The stamp of a reading in quotes. -/
def quoted (u : DateTime) : Text := '\'' :: fieldsText (u.stampFields 0) ++ ['\'']

lemma literal_stamp (u : DateTime) : Text.literal (stamp u.date u.time) = u.quoted := by
  have hquote : '\'' ∉ fieldsText (u.stampFields 0) :=
    not_mem_fieldsText (by decide) (by simp [stampFields, fieldsBehindYear])
  rw [Text.literal, stamp_eq, escapeQuotes_of_not_mem hquote, quoted]

/-! ### Reading -/

/-- The date and the time that a literal denotes, to the millisecond. -/
def ofLiteral? : Text → Option DateTime
  | '\'' :: t =>
    match readNumbers? "-- ::.Z" t with
    | some ([year, month, day, hour, minute, second, millisecond], ['\'']) =>
      some ⟨⟨year, month, day⟩, ⟨hour, minute, second, millisecond * 1000⟩, none⟩
    | _ => none
  | _ => none

/-- The literal of a reading denotes it without what is less than a millisecond. -/
theorem ofLiteral?_quoted {u : DateTime} (h : u.offset = none) :
    ofLiteral? u.quoted = some u.truncated := by
  have hmarks : ∀ f ∈ u.stampFields 0, f.mark.isDigit = false := by
    simp [stampFields, fieldsBehindYear]
  have hread := readNumbers?_fieldsText hmarks ['\'']
  have hnumbers : readNumbers? "-- ::.Z" (fieldsText (u.stampFields 0) ++ ['\''])
      = some ([u.date.year, u.date.month, u.date.day, u.time.hour, u.time.minute, u.time.second,
        u.time.microsecond / 1000], ['\'']) := hread
  rw [quoted, List.cons_append, ofLiteral?, hnumbers, truncated, h]
  rfl

/-- What is less than a millisecond is not written. -/
lemma quoted_truncated (u : DateTime) : u.truncated.quoted = u.quoted := by
  have hmillisecond : u.time.microsecond / 1000 * 1000 / 1000 = u.time.microsecond / 1000 :=
    Nat.mul_div_cancel _ (by decide)
  simp only [quoted, stampFields, fieldsBehindYear, truncated, hmillisecond]

/-! ### Order and layout -/

section Wide

variable {u x : DateTime} {i j : Int}

lemma fits_stampFields (h : u.Reads i) : ∀ f ∈ u.stampFields 4, f.Fits := by
  obtain ⟨hdate, ⟨hhour, hminute, hsecond, hmicrosecond⟩, -⟩ := h.valid
  have hyear := hdate.2.1
  have hmonth := hdate.month_le
  have hday := hdate.day_le
  simp only [stampFields, fieldsBehindYear, List.forall_mem_cons, Field.Fits]
  refine ⟨?_, ?_, ?_, ?_, ?_, ?_, ?_, List.forall_mem_nil _⟩ <;>
    exact ⟨by decide, by omega⟩

/-- From the year 1000 on the year fills four digits. -/
lemma fieldsText_stampFields (h : 1000 ≤ u.date.year) :
    fieldsText (u.stampFields 0) = fieldsText (u.stampFields 4) := by
  have hlength : 4 ≤ (numeral u.date.year).length := by
    by_contra hlt
    have hyear := (Nat.length_toDigits_le_iff (b := 10) (k := 3) (by decide) (by decide)).1
      (Nat.le_of_lt_succ (Nat.lt_of_not_le hlt))
    omega
  simp only [stampFields, fieldsText_cons, padded_of_le_length hlength,
    padded_of_le_length (Nat.zero_le _)]

/-- The numbers of the fields have the order of the instants in milliseconds. -/
lemma stampFields_lt_iff (hu : u.Reads i) (hx : x.Reads j) :
    (u.stampFields 4).map Field.number < (x.stampFields 4).map Field.number
      ↔ i / 1000 < j / 1000 := by
  have hi := hu.instant_of_parts
  have hj := hx.instant_of_parts
  obtain ⟨hdate, ⟨hhour, hminute, hsecond, hmicrosecond⟩, -⟩ := hu.valid
  obtain ⟨hdate', ⟨hhour', hminute', hsecond', hmicrosecond'⟩, -⟩ := hx.valid
  have hlt := Date.number_lt_iff hdate hdate'
  have hgt := Date.number_lt_iff hdate' hdate
  rw [TimeOfDay.seconds] at hi hj
  simp only [stampFields, fieldsBehindYear, List.map_cons, List.map_nil, List.cons_lt_cons_iff,
    List.not_lt_nil, and_false, or_false]
  by_cases h : u.date.Precedes x.date
  · have hnumber := hlt.2 h
    rw [Date.Precedes] at h
    omega
  · by_cases h' : x.date.Precedes u.date
    · have hnumber := hgt.2 h'
      rw [Date.Precedes] at h h'
      omega
    · rw [Date.eq_of_not_precedes h h'] at hi ⊢
      omega

/-- From the year 1000 on literals have the order of their instants in milliseconds. -/
theorem quoted_lt_iff (hu : u.Reads i) (hx : x.Reads j) (hyear : 1000 ≤ u.date.year)
    (hyear' : 1000 ≤ x.date.year) : u.quoted < x.quoted ↔ i / 1000 < j / 1000 := by
  have haligned : List.Forall₂ Field.Aligned (u.stampFields 4) (x.stampFields 4) := by
    simp [stampFields, fieldsBehindYear, Field.Aligned]
  rw [quoted, quoted, List.cons_append, List.cons_append, List.cons_lt_cons_self,
    fieldsText_stampFields hyear, fieldsText_stampFields hyear',
    fieldsText_lt_iff haligned (fits_stampFields hu) (fits_stampFields hx),
    stampFields_lt_iff hu hx]

/-- Two readings have the same literal exactly if they fall into the same millisecond. -/
theorem quoted_eq_iff (hu : u.Reads i) (hx : x.Reads j) :
    u.quoted = x.quoted ↔ i / 1000 = j / 1000 := by
  constructor
  · intro h
    have hread := congrArg ofLiteral? h
    rw [ofLiteral?_quoted hu.offset_eq, ofLiteral?_quoted hx.offset_eq] at hread
    have hinstant := hu.reads_truncated.instant_eq
    rw [Option.some.inj hread, hx.reads_truncated.instant_eq] at hinstant
    omega
  · intro h
    have hread := hu.reads_truncated
    rw [h] at hread
    rw [← u.quoted_truncated, ← x.quoted_truncated, hread.unique hx.reads_truncated]

/-- Behind its year a literal has the layout of dates. -/
lemma quoted_eq (hu : u.Reads i) :
    ∃ rest, u.quoted = '\'' :: numeral u.date.year ++ rest
      ∧ HasShape "-00-00 00:00:00.000Z'" rest := by
  have hbehind : HasShape (fieldsPattern u.fieldsBehindYear) (fieldsText u.fieldsBehindYear) :=
    hasShape_fieldsText (List.forall_mem_cons.1 (fits_stampFields hu)).2
      (by simp [fieldsBehindYear])
  have hends : HasShape ['-'] ['-'] ∧ HasShape ['\''] ['\''] :=
    ⟨.cons rfl .nil, .cons rfl .nil⟩
  refine ⟨'-' :: fieldsText u.fieldsBehindYear ++ ['\''], ?_,
    List.rel_append (List.rel_append hends.1 hbehind) hends.2⟩
  rw [quoted, stampFields, fieldsText_cons, padded_of_le_length (Nat.zero_le _)]
  simp

lemma length_quoted (hu : u.Reads i) : u.quoted.length = 22 + (numeral u.date.year).length := by
  obtain ⟨rest, hquoted, hrest⟩ := quoted_eq hu
  have hlength : rest.length = 21 := hrest.length_eq.symm
  rw [hquoted, List.length_append, List.length_cons, hlength]
  omega

lemma length_quoted_eq_iff (hu : u.Reads i) : u.quoted.length = 26 ↔ 1000 ≤ u.date.year := by
  have hthree := Nat.length_toDigits_le_iff (b := 10) (n := u.date.year) (k := 3) (by decide)
    (by decide)
  have hfour := Nat.length_toDigits_le_iff (b := 10) (n := u.date.year) (k := 4) (by decide)
    (by decide)
  have hyear := hu.valid.1.2.1
  rw [length_quoted hu, numeral]
  omega

/-- A literal has the layout of dates exactly from the year 1000 on. -/
theorem hasShape_quoted_iff (hu : u.Reads i) :
    HasShape "'0000-00-00 00:00:00.000Z'" u.quoted ↔ 1000 ≤ u.date.year := by
  refine ⟨fun h => (length_quoted_eq_iff hu).1 h.length_eq.symm, fun h => ?_⟩
  have hstamp : HasShape (fieldsPattern (u.stampFields 4)) (fieldsText (u.stampFields 4)) :=
    hasShape_fieldsText (fits_stampFields hu) (by simp [stampFields, fieldsBehindYear])
  have hquote : HasShape ['\''] ['\''] := .cons rfl .nil
  rw [quoted, fieldsText_stampFields h]
  exact List.rel_append (List.rel_append hquote hstamp) hquote

end Wide

end DateTime

namespace Value

/-- The date with a time that a value is, if it is one. A date alone stands for its midnight. -/
def dateTime? : Value → Option DateTime
  | datetime t => some t
  | date d => some ⟨d, .midnight, none⟩
  | _ => none

section Literal

variable {v w : Value} {t s u x : DateTime} {a b : Text}

lemma literal_of_dateTime? (h : v.dateTime? = some t) : v.literal = (stamp t).map Text.literal := by
  cases v with
  | datetime t' =>
      obtain rfl := Option.some.inj h
      rfl
  | date d =>
      obtain rfl := Option.some.inj h
      rfl
  | _ => cases h

/-- A date has the literal of the reading of its instant. -/
theorem literal_eq_ok_iff (hv : v.dateTime? = some t) (ht : t.Valid) :
    v.literal = .ok a ↔ ∃ u : DateTime, u.Reads t.instant ∧ a = u.quoted := by
  simp only [← t.toUniversal?_eq_some_iff ht]
  rw [literal_of_dateTime? hv, stamp]
  cases t.toUniversal? with
  | none => exact iff_of_false nofun fun ⟨_, hu, _⟩ => nomatch hu
  | some u =>
      constructor
      · intro h
        exact ⟨u, rfl, (Except.ok.inj h).symm.trans u.literal_stamp⟩
      · rintro ⟨u', hu, rfl⟩
        obtain rfl := Option.some.inj hu
        exact congrArg Except.ok u.literal_stamp

/-- A date has no literal exactly if its instant is outside of the calendar. -/
theorem literal_eq_error_iff (hv : v.dateTime? = some t) (ht : t.Valid) :
    v.literal = .error .instantOutOfRange
      ↔ t.instant < DateTime.calendarStart.instant ∨ DateTime.calendarEnd.instant < t.instant := by
  rw [← t.toUniversal?_eq_none_iff ht, literal_of_dateTime? hv, stamp]
  cases t.toUniversal? with
  | none => exact iff_of_true rfl rfl
  | some u => exact iff_of_false nofun nofun

lemma literal_eq_of_instant_eq (hv : v.dateTime? = some t) (hw : w.dateTime? = some s)
    (ht : t.Valid) (hs : s.Valid) (h : t.instant = s.instant) : v.literal = w.literal := by
  rw [literal_of_dateTime? hv, literal_of_dateTime? hw, stamp, stamp,
    DateTime.toUniversal?_congr ht hs h]

end Literal

/-! ### Results -/

/-- A date with a time has no literal exactly if its instant is outside of the calendar. Otherwise
its literal denotes a date and a time of the calendar, whose instant is that of the date rounded down
to a millisecond. So dates with the same instant have the same literal, whatever their offsets, and a
date alone has that of its midnight. -/
theorem literal_denotes_instant :
    (∀ t : DateTime, t.Valid →
      ((datetime t).literal = .error .instantOutOfRange
          ↔ t.instant < DateTime.calendarStart.instant ∨ DateTime.calendarEnd.instant < t.instant)
      ∧ (DateTime.calendarStart.instant ≤ t.instant ∧ t.instant ≤ DateTime.calendarEnd.instant →
          ∃ a u, (datetime t).literal = .ok a ∧ DateTime.ofLiteral? a = some u
            ∧ u.Reads (t.instant / 1000 * 1000)))
    ∧ (∀ t s : DateTime, t.Valid → s.Valid → t.instant = s.instant →
        (datetime t).literal = (datetime s).literal)
    ∧ ∀ d : Date, d.Valid → ∀ offset ∈ [none, some 0],
        (date d).literal = (datetime ⟨d, .midnight, offset⟩).literal := by
  refine ⟨fun t ht => ⟨literal_eq_error_iff rfl ht, fun hin => ?_⟩,
    fun t s ht hs => literal_eq_of_instant_eq rfl rfl ht hs, fun d hd offset hoffset => ?_⟩
  · obtain ⟨u, hu⟩ := DateTime.exists_reads_iff.2 hin
    exact ⟨u.quoted, u.truncated, (literal_eq_ok_iff rfl ht).2 ⟨u, hu, rfl⟩,
      DateTime.ofLiteral?_quoted hu.offset_eq, hu.reads_truncated⟩
  · have hmidnight : TimeOfDay.midnight.Valid := by decide
    rw [List.mem_pair] at hoffset
    rcases hoffset with rfl | rfl
    · rfl
    · exact literal_eq_of_instant_eq rfl rfl ⟨hd, hmidnight, nofun⟩
        ⟨hd, hmidnight, by simp⟩ rfl

/-- Half an hour past midnight on the first of March of a leap year, an hour ahead of universal
time. -/
def leapNight : DateTime := ⟨⟨2024, 3, 1⟩, ⟨0, 30, 15, 123456⟩, some 3600⟩

/-- The instant of `leapNight`, five hours behind universal time. -/
def leapEvening : DateTime := ⟨⟨2024, 2, 29⟩, ⟨18, 30, 15, 123456⟩, some (-18000)⟩

/-- The first half hour of the calendar has no literal an hour ahead of universal time, and a leap
day is found from the day behind it. -/
theorem literal_leapNight :
    (datetime ⟨⟨1, 1, 1⟩, ⟨0, 30, 0, 0⟩, some 3600⟩).literal = .error .instantOutOfRange
      ∧ (datetime leapNight).literal = .ok ("'2024-02-29 23:30:15.123Z'" : Text)
      ∧ (∃ a u, (datetime leapNight).literal = .ok a ∧ DateTime.ofLiteral? a = some u
          ∧ u.Reads (leapNight.instant / 1000 * 1000))
      ∧ (datetime leapEvening).literal = (datetime leapNight).literal
      ∧ (date ⟨999, 5, 6⟩).literal = (datetime ⟨⟨999, 5, 6⟩, .midnight, some 0⟩).literal := by
  obtain ⟨hinstant, hsame, hmidnight⟩ := literal_denotes_instant
  exact ⟨(hinstant _ (by decide)).1.2 (by decide), by rfl, (hinstant _ (by decide)).2 (by decide),
    hsame _ _ (by decide) (by decide) (by decide), hmidnight _ (by decide) _ (by decide)⟩

/-- From the year 1000 on the literals of dates come before each other as their instants do, to the
millisecond. -/
theorem literal_lt_iff {v w : Value} {t s u x : DateTime} (hv : v.dateTime? = some t)
    (hw : w.dateTime? = some s) (ht : t.Valid) (hs : s.Valid) (hu : u.Reads t.instant)
    (hx : x.Reads s.instant) (hyear : 1000 ≤ u.date.year) (hyear' : 1000 ≤ x.date.year) :
    ∃ a b, v.literal = .ok a ∧ w.literal = .ok b
      ∧ (a < b ↔ t.instant / 1000 < s.instant / 1000)
      ∧ (a = b ↔ t.instant / 1000 = s.instant / 1000)
      ∧ (b < a ↔ s.instant / 1000 < t.instant / 1000) :=
  ⟨u.quoted, x.quoted, (literal_eq_ok_iff hv ht).2 ⟨u, hu, rfl⟩,
    (literal_eq_ok_iff hw hs).2 ⟨x, hx, rfl⟩, DateTime.quoted_lt_iff hu hx hyear hyear',
    DateTime.quoted_eq_iff hu hx, DateTime.quoted_lt_iff hx hu hyear' hyear⟩

/-- The last half hour of a year, ahead of universal time, comes before the first day of the next
one. -/
theorem literal_lt_newYear :
    ∃ a b, (datetime ⟨⟨2024, 1, 1⟩, ⟨0, 30, 0, 0⟩, some 3600⟩).literal = .ok a
      ∧ (date ⟨2024, 1, 1⟩).literal = .ok b ∧ a < b := by
  obtain ⟨a, b, ha, hb, hlt, -, -⟩ :=
    literal_lt_iff (v := datetime ⟨⟨2024, 1, 1⟩, ⟨0, 30, 0, 0⟩, some 3600⟩)
      (w := date ⟨2024, 1, 1⟩) (u := ⟨⟨2023, 12, 31⟩, ⟨23, 30, 0, 0⟩, none⟩)
      (x := ⟨⟨2024, 1, 1⟩, .midnight, none⟩) rfl rfl (by decide) (by decide)
      ⟨by decide, rfl, by decide⟩ ⟨by decide, rfl, by decide⟩ (by decide) (by decide)
  exact ⟨a, b, ha, hb, hlt.2 (by decide)⟩

/-- Behind its year a literal always has the layout of dates. As a whole it has it, and the length
that goes with it, exactly if its year in universal time is 1000 or later: the year is written
without zeros in front. -/
theorem literal_hasShape_iff {v : Value} {t : DateTime} {a : Text} (hv : v.dateTime? = some t)
    (ht : t.Valid) (ha : v.literal = .ok a) :
    ∃ (u : DateTime) (rest : Text), u.Reads t.instant
      ∧ a = '\'' :: numeral u.date.year ++ rest ∧ HasShape "-00-00 00:00:00.000Z'" rest
      ∧ (HasShape "'0000-00-00 00:00:00.000Z'" a ↔ 1000 ≤ u.date.year)
      ∧ (a.length = 26 ↔ 1000 ≤ u.date.year) := by
  obtain ⟨u, hu, rfl⟩ := (literal_eq_ok_iff hv ht).1 ha
  obtain ⟨rest, hquoted, hrest⟩ := DateTime.quoted_eq hu
  exact ⟨u, rest, hu, hquoted, hrest, DateTime.hasShape_quoted_iff hu,
    DateTime.length_quoted_eq_iff hu⟩

/-- The first half hour of the year 1000, an hour ahead of universal time. -/
def millennium : DateTime := ⟨⟨1000, 1, 1⟩, ⟨0, 30, 0, 0⟩, some 3600⟩

/-- The shift to universal time takes `millennium` back into the year before, which has one digit
less. -/
theorem literal_millennium :
    (datetime millennium).literal = .ok ("'999-12-31 23:30:00.000Z'" : Text)
      ∧ ∃ (u : DateTime) (rest : Text), u.Reads millennium.instant
        ∧ ("'999-12-31 23:30:00.000Z'" : Text) = '\'' :: numeral u.date.year ++ rest
        ∧ HasShape "-00-00 00:00:00.000Z'" rest
        ∧ (HasShape "'0000-00-00 00:00:00.000Z'" "'999-12-31 23:30:00.000Z'"
            ↔ 1000 ≤ u.date.year) := by
  have hliteral : (datetime millennium).literal = .ok ("'999-12-31 23:30:00.000Z'" : Text) := by rfl
  obtain ⟨u, rest, hu, htext, hrest, hshape, -⟩ :=
    literal_hasShape_iff (v := datetime millennium) rfl (by decide) hliteral
  exact ⟨hliteral, u, rest, hu, htext, hrest, hshape⟩

/-- A date of the year 999 has a year of three digits. -/
theorem literal_short_of_layout :
    (datetime ⟨⟨999, 5, 6⟩, ⟨1, 2, 3, 4000⟩, none⟩).literal
        = .ok ("'999-05-06 01:02:03.004Z'" : Text)
      ∧ ¬ HasShape "'0000-00-00 00:00:00.000Z'" "'999-05-06 01:02:03.004Z'" :=
  ⟨by rfl, fun h => absurd h.length_eq (by decide)⟩

end Value

end RecordQuery
