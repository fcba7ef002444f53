import RecordQuery.Number.Magnitude

/-!
The fewest decimal digits that identify a binary floating-point number.

* The reals that round to a number form an interval around it (`Binary64.Spread`), whose ends
  belong to it exactly when the significand is even.
* `Binary64.shortest` searches the decimal grids from coarse to fine. On each grid it tests the two
  neighbours of the number, and the first grid with a hit gives the digits; of two hits the nearer
  is taken, and at equal distance the even one.
-/

namespace RecordQuery

namespace Binary64

/-- A positive number and the interval of reals that round to it, as fractions over one common
denominator. The neighbour below is half as far away as the one above when the significand is a
power of two at the start of a binade, so the interval need not be symmetric. -/
structure Spread where
  low : Nat
  middle : Nat
  high : Nat
  denominator : Nat
  endsIncluded : Bool

/-- The interval of `significand · 2 ^ exponent`, in quarters of a unit in the last place. -/
def spread (significand : Nat) (exponent : Int) : Spread :=
  let narrow := significand = leadingBit ∧ -1074 < exponent
  let unit := Nat.pow 2 exponent.toNat
  { low := (if narrow then 4 * significand - 1 else 4 * significand - 2) * unit
    middle := 4 * significand * unit
    high := (4 * significand + 2) * unit
    denominator := 4 * Nat.pow 2 (-exponent).toNat
    endsIncluded := significand % 2 = 0 }

namespace Spread

/-- How `digits · 10 ^ exponent` compares with `numerator / denominator`. -/
def compareScaled (digits : Nat) (exponent : Int) (numerator denominator : Nat) : Ordering :=
  compare (digits * Nat.pow 10 exponent.toNat * denominator)
    (numerator * Nat.pow 10 (-exponent).toNat)

/-- `digits · 10 ^ exponent` lies in the interval, so reading it gives the number back. -/
def contains (s : Spread) (digits : Nat) (exponent : Int) : Bool :=
  let below := compareScaled digits exponent s.low s.denominator
  let above := compareScaled digits exponent s.high s.denominator
  (below == .gt || s.endsIncluded && below == .eq) &&
    (above == .lt || s.endsIncluded && above == .eq)

/-- The exponent `k` with `10 ^ (k - 1) ≤ middle < 10 ^ k`. -/
def magnitude (s : Spread) : Int :=
  if s.denominator ≤ s.middle then (Text.numeral (s.middle / s.denominator)).length
  else
    let places := (Text.numeral (s.denominator / s.middle)).length - 1
    if s.denominator ≤ s.middle * Nat.pow 10 places then 1 - places else -places

/-- The number's neighbour on the grid of `10 ^ exponent` that lies in the interval; of two the
nearer, and of two equally near the even one. -/
def onGrid? (s : Spread) (exponent : Int) : Option Nat :=
  let down := s.middle * Nat.pow 10 (-exponent).toNat / (s.denominator * Nat.pow 10 exponent.toNat)
  match s.contains down exponent, s.contains (down + 1) exponent with
  | true, true =>
    match compareScaled (2 * down + 1) exponent (2 * s.middle) s.denominator with
    | .lt => some (down + 1)
    | .gt => some down
    | .eq => some (if down % 2 = 0 then down else down + 1)
  | true, false => some down
  | false, true => some (down + 1)
  | false, false => none

end Spread

/-- The shortest decimal, as digits and an exponent of ten, that lies in the interval of a positive
number. Seventeen digits are always enough; the number's exact decimal stands behind them. -/
def shortest (significand : Nat) (exponent : Int) : Nat × Int :=
  let s := spread significand exponent
  let k := s.magnitude
  let grids := (List.range 17).map fun (n : Nat) => k - (n + 1)
  let found := grids.findSome? fun scale => (s.onGrid? scale).map (·, scale)
  let (digits, scale) := found.getD
    (significand * Nat.pow 2 exponent.toNat * Nat.pow 5 (-exponent).toNat, min exponent 0)
  trimZeros (Text.numeral digits).length digits scale

end Binary64

end RecordQuery
