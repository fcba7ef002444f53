import RecordQuery.Number.Literal

/-!
Binary floating-point numbers of 64 bits, as exact values.

* `Binary64` holds a number as a sign, a significand and an exponent of two, so that comparing it
  with an integer or a decimal is arithmetic on integers.
* `Binary64.ofBits` decodes the interchange format and `Binary64.read?` reads a decimal literal,
  rounding it to the nearest number, a tie to the even significand.
* A NaN equals no number, so it can only be recognised. Its mark tells it from the others that were
  read, and a NaN that is handed on keeps its mark.
-/

namespace RecordQuery

/-- A 64-bit binary floating-point number. A finite one is the significand times two to the
exponent, negated if it is marked negative, so that there are two zeros. -/
inductive Binary64 where
  | nan (mark : Nat)
  | infinite (negative : Bool)
  | finite (negative : Bool) (significand : Nat) (exponent : Int)
deriving DecidableEq, Repr

namespace Binary64

/-- The leading bit of the significand of a normal number, which is not stored. -/
def leadingBit : Nat := 0x10000000000000

/-- The number of a 64-bit pattern: one bit of sign, eleven of exponent, fifty-two of fraction. The
greatest exponent field stands for the infinities and NaN, the least one for the subnormal numbers. -/
def ofBits (bits : UInt64) : Binary64 :=
  let field := (bits >>> 52 &&& 0x7FF).toNat
  let fraction := (bits &&& 0xFFFFFFFFFFFFF).toNat
  let negative := bits >>> 63 == 1
  if field = 0x7FF then if fraction = 0 then infinite negative else nan 0
  else if field = 0 then finite negative fraction (-1074)
  else finite negative (leadingBit + fraction) (field - 1075)

/-- The nearest number to `coefficient · 10 ^ exponent`. Beyond 400 decimal places from the point
in either direction the answer is an infinity or a zero, whatever the digits. -/
def ofScaled (negative : Bool) (coefficient : Nat) (exponent : Int) : Binary64 :=
  let magnitude := (Text.numeral coefficient).length + exponent
  if coefficient = 0 || magnitude < -400 then finite negative 0 (-1074)
  else if 400 < magnitude then infinite negative
  else
    match ofBits (Float.ofScientific coefficient (exponent < 0) exponent.natAbs).toBits with
    | finite _ significand exponent => finite negative significand exponent
    | infinite _ => infinite negative
    | nan mark => nan mark

/-- Reads a literal as the nearest number. If it is a NaN, it gets the mark. -/
def read? (mark : Nat) (t : Text) : Option Binary64 :=
  (NumberLiteral.read? t).map fun
    | .scaled negative coefficient exponent => ofScaled negative coefficient exponent
    | .infinite negative => infinite negative
    | .nan .. => nan mark

end Binary64

end RecordQuery
