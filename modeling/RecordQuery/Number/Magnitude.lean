import RecordQuery.Number.Decimal
import RecordQuery.Number.Binary64

/-!
What a number denotes, whatever its format.

* `Magnitude` has one form for every number: a decimal without trailing zeros, and zero without a
  sign. So numbers of all formats are equal exactly when their magnitudes are the same, however far
  their exponents lie apart.
* `trimZeros` moves trailing zeros from the digits of a decimal into its exponent.
-/

namespace RecordQuery

/-- Moves trailing zeros from the digits into the exponent, at most as many as `fuel`. -/
def trimZeros : (fuel : Nat) → Nat → Int → Nat × Int
  | 0, digits, exponent => (digits, exponent)
  | fuel + 1, digits, exponent =>
    if digits ≠ 0 ∧ digits % 10 = 0 then trimZeros fuel (digits / 10) (exponent + 1)
    else (digits, exponent)

/-- What a number denotes. A NaN denotes nothing but itself. -/
inductive Magnitude where
  | nan (signaling : Bool) (mark : Nat)
  | infinite (negative : Bool)
  /-- The coefficient, which does not end in a zero, times ten to the exponent. -/
  | finite (negative : Bool) (coefficient : Nat) (exponent : Int)
deriving DecidableEq, Repr

namespace Magnitude

/-- The number `± coefficient · 10 ^ exponent`. A number has fewer trailing zeros than binary
digits. -/
def scaled (negative : Bool) (coefficient : Nat) (exponent : Int) : Magnitude :=
  if coefficient = 0 then finite false 0 0
  else
    let (digits, scale) := trimZeros coefficient.log2 coefficient exponent
    finite negative digits scale

/-- The magnitude of an integer. -/
def ofInt (n : Int) : Magnitude := scaled (n < 0) n.natAbs 0

/-- The magnitude of a binary number: a negative power of two is one of five, scaled by ten. -/
def ofBinary64 : Binary64 → Magnitude
  | .nan mark => nan false mark
  | .infinite negative => infinite negative
  | .finite negative significand exponent =>
    scaled negative (significand * Nat.pow 2 exponent.toNat * Nat.pow 5 (-exponent).toNat)
      (min exponent 0)

/-- The magnitude of a decimal number. -/
def ofDecimal : Decimal → Magnitude
  | .nan _ signaling _ mark => nan signaling mark
  | .infinite negative => infinite negative
  | .finite negative coefficient exponent => scaled negative coefficient exponent

/-- The number is a signaling NaN, which may not be compared. -/
def isSignaling : Magnitude → Bool
  | nan signaling _ => signaling
  | _ => false

end Magnitude

end RecordQuery
