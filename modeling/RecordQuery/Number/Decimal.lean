import RecordQuery.Number.Literal

/-!
Decimal numbers that keep the digits and the exponent they were written with.

* `Decimal` tells `1.0` from `1.00`: the coefficient and the exponent are both kept.
* `Decimal.read?` reads a literal exactly, without rounding. A NaN has a mark that tells it from the
  others that were read.
-/

namespace RecordQuery

/-- A decimal floating-point number. A finite one is the coefficient times ten to the exponent. -/
inductive Decimal where
  | finite (negative : Bool) (coefficient : Nat) (exponent : Int)
  | infinite (negative : Bool)
  | nan (negative signaling : Bool) (payload mark : Nat)
deriving DecidableEq, Repr

namespace Decimal

/-- Reads a literal, keeping its digits and exponent as they stand. If it is a NaN, it gets the
mark. -/
def read? (mark : Nat) (t : Text) : Option Decimal :=
  (NumberLiteral.read? t).map fun
    | .scaled negative coefficient exponent => finite negative coefficient exponent
    | .infinite negative => infinite negative
    | .nan negative signaling payload => nan negative signaling payload mark

end Decimal

end RecordQuery
