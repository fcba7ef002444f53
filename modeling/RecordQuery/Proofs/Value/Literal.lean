import RecordQuery.Filter.Literal
import RecordQuery.Proofs.Fault

/-!
Why a value has no literal.

* `Value.hurdles` lists the keys and the integers in a value, at any depth, in the order in which
  they are met. These alone can keep a value from being written (`Hurdle.stops`).
* `Value.faultOf?_json`: a value has no text in JSON exactly if one of its hurdles stops it, and then
  the first one that does is the cause (`Value.firstHurdle?`).
* `Value.IntegersFit.firstHurdle?_eq`: where no integer has too many digits, that is the first key of
  a kind that JSON has no text for.
* `Value.fault_of_literal`: besides that, only an instant outside of the calendar has no literal.
-/

namespace RecordQuery

namespace Value

/-- The kinds of keys that JSON has a text for. -/
def writtenKeys : List Kind := [.null, .bool, .int, .float, .text, .operator]

/-- What may keep a value from being written: a key of a mapping, or an integer. -/
inductive Hurdle where
  | key (k : Value)
  | integer (n : Int)

namespace Hurdle

/-- The key that is met. -/
def key? : Hurdle → Option Value
  | key k => some k
  | integer _ => none

/-- The key is of a kind that JSON has no text for, or the integer has too many digits. -/
def stops : Hurdle → Bool
  | key k => k.kind ∉ writtenKeys
  | integer n => Text.exceedsLimit n

/-- The fault that the hurdle is the cause of, if it stops a value from being written. -/
def fault : Hurdle → Fault
  | key k => .jsonKey k.kind
  | integer _ => .tooManyDigits

end Hurdle

/-! ### What is met in a value -/

/-- What is met when a key is written: a key that is an integer is met as both. -/
def keyHurdles : Value → List Hurdle
  | int n => [.key (int n), .integer n]
  | key => [.key key]

mutual

/-- The keys of the mappings and the integers in a value, at any depth, from left to right: each key
in front of what is met in its own value. -/
def hurdles : Value → List Hurdle
  | int n => [.integer n]
  | list items => hurdlesInItems items
  | tuple items => hurdlesInItems items
  | mapping entries => hurdlesInEntries entries
  | _ => []
termination_by structural v => v

/-- What is met in items. -/
def hurdlesInItems : List Value → List Hurdle
  | [] => []
  | item :: items => hurdles item ++ hurdlesInItems items
termination_by structural items => items

/-- What is met in entries. -/
def hurdlesInEntries : List (Value × Value) → List Hurdle
  | [] => []
  | entry :: entries => hurdlesInEntry entry ++ hurdlesInEntries entries
termination_by structural entries => entries

/-- The key of an entry, and what is met in its value. -/
def hurdlesInEntry : Value × Value → List Hurdle
  | (key, value) => keyHurdles key ++ hurdles value
termination_by structural entry => entry

end

lemma hurdlesInItems_eq_flatMap (items : List Value) :
    hurdlesInItems items = items.flatMap hurdles := by
  induction items with
  | nil => rfl
  | cons item items ih => rw [hurdlesInItems, ih, List.flatMap_cons]

lemma hurdlesInEntries_eq_flatMap (entries : List (Value × Value)) :
    hurdlesInEntries entries = entries.flatMap fun entry => entry.1.keyHurdles ++ entry.2.hurdles := by
  induction entries with
  | nil => rfl
  | cons entry entries ih => rw [hurdlesInEntries, ih, List.flatMap_cons, hurdlesInEntry]

/-- None of the integers that are met in a value has too many digits. -/
def IntegersFit (v : Value) : Prop := ∀ n, .integer n ∈ v.hurdles → Text.exceedsLimit n = false

/-- The first hurdle of a value that stops it from being written. -/
def firstHurdle? (v : Value) : Option Hurdle := v.hurdles.find? Hurdle.stops

/-! ### The first hurdle is the cause -/

/-- The fault of the first of the hurdles that stops a value from being written. -/
def hurdleFault? (hs : List Hurdle) : Option Fault := (hs.find? Hurdle.stops).map Hurdle.fault

lemma hurdleFault?_append (hs more : List Hurdle) :
    hurdleFault? (hs ++ more) = (hurdleFault? hs).or (hurdleFault? more) := by
  rw [hurdleFault?, List.find?_append, Option.map_or]
  rfl

lemma faultOf?_displayed_int (n : Int) :
    faultOf? (int n).displayed = hurdleFault? [.integer n] := by
  rw [faultOf?_displayed, overlong, hurdleFault?, List.find?_singleton, Hurdle.stops]
  cases Text.exceedsLimit n <;> rfl

lemma faultOf?_jsonKey (key : Value) : faultOf? key.jsonKey = hurdleFault? key.keyHurdles := by
  cases key with
  | int n => exact faultOf?_displayed_int n
  | _ => rfl

mutual

/-- **The first hurdle is the cause**: a value has no text in JSON exactly if a key or an integer that
is met in it has none, and the first of these is to blame. -/
theorem faultOf?_json : (v : Value) → faultOf? v.json = hurdleFault? v.hurdles
  | list items | tuple items => by
    rw [json, faultOf?_bind_return, faultOf?_jsonItems items, hurdles]
  | mapping entries => by
    rw [json, faultOf?_bind_return, faultOf?_jsonEntries entries, hurdles]
  | int n => faultOf?_displayed_int n
  | null | bool _ | float _ | decimal _ | text _ | uuid _ | datetime _ | date _ | time _
  | bytes _ | operator _ => rfl

theorem faultOf?_jsonItems : (items : List Value) →
    faultOf? (jsonItems items) = hurdleFault? (hurdlesInItems items)
  | [] => rfl
  | item :: items => by
    rw [jsonItems, hurdlesInItems, hurdleFault?_append, ← faultOf?_json item,
      ← faultOf?_jsonItems items]
    exact faultOf?_bind fun _ => faultOf?_bind_return _ _

theorem faultOf?_jsonEntries : (entries : List (Value × Value)) →
    faultOf? (jsonEntries entries) = hurdleFault? (hurdlesInEntries entries)
  | [] => rfl
  | entry :: entries => by
    rw [jsonEntries, hurdlesInEntries, hurdleFault?_append, ← faultOf?_jsonEntry entry,
      ← faultOf?_jsonEntries entries]
    exact faultOf?_bind fun _ => faultOf?_bind_return _ _

theorem faultOf?_jsonEntry : (entry : Value × Value) →
    faultOf? (jsonEntry entry) = hurdleFault? (hurdlesInEntry entry)
  | (key, value) => by
    rw [jsonEntry, hurdlesInEntry, hurdleFault?_append, ← faultOf?_jsonKey, ← faultOf?_json value]
    exact faultOf?_bind fun _ => faultOf?_bind_return _ _

end

/-- A literal that is quoted JSON fails as the JSON does. -/
lemma faultOf?_map_literal (v : Value) :
    faultOf? (v.json.map Text.literal) = hurdleFault? v.hurdles := by
  rw [← faultOf?_json]
  cases v.json <;> rfl

/-- Only an instant can fail for another reason than a hurdle. -/
lemma faultOf?_literal {v : Value} (h : ∀ t, v ≠ datetime t) :
    faultOf? v.literal = hurdleFault? v.hurdles := by
  cases v with
  | datetime t => exact absurd rfl (h t)
  | int n => exact faultOf?_displayed_int n
  | list items => exact faultOf?_map_literal (list items)
  | tuple items => exact faultOf?_map_literal (tuple items)
  | mapping entries => exact faultOf?_map_literal (mapping entries)
  | _ => rfl

/-- A value that is no date with a time fails at its first hurdle that stops it. -/
lemma literal_eq_hurdleFault_iff {v : Value} (hdate : ∀ t, v ≠ datetime t) {fault : Fault} :
    v.literal = .error fault ↔ ∃ hurdle, v.firstHurdle? = some hurdle ∧ fault = hurdle.fault := by
  rw [← faultOf?_eq_some_iff, faultOf?_literal hdate, hurdleFault?, Option.map_eq_some_iff]
  simp only [eq_comm, firstHurdle?]

/-- An instant has no literal exactly if the calendar does not hold it. -/
lemma literal_datetime_eq_error_iff {t : DateTime} {fault : Fault} :
    (datetime t).literal = .error fault ↔ fault = .instantOutOfRange ∧ t.toUniversal? = none := by
  rw [literal, stamp]
  cases t.toUniversal? with
  | none => exact ⟨fun h => ⟨(Except.error.inj h).symm, rfl⟩, fun h => h.1 ▸ rfl⟩
  | some u => exact iff_of_false nofun (fun h => nomatch h.2)

/-- The fault is that of a key or an integer that cannot be written. -/
def IsHurdleFault (fault : Fault) : Prop := ∃ hurdle : Hurdle, fault = hurdle.fault

/-- A value without a literal is an instant outside of the calendar or holds a key or an integer that
cannot be written. -/
theorem fault_of_literal {v : Value} {fault : Fault} (h : v.literal = .error fault) :
    fault = .instantOutOfRange ∨ IsHurdleFault fault := by
  by_cases hv : ∃ t, v = datetime t
  · obtain ⟨t, rfl⟩ := hv
    exact Or.inl (literal_datetime_eq_error_iff.1 h).1
  · obtain ⟨hurdle, -, rfl⟩ := (literal_eq_hurdleFault_iff (not_exists.1 hv)).1 h
    exact Or.inr ⟨hurdle, rfl⟩

end Value

end RecordQuery
