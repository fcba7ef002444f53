import RecordQuery.Text

/-!
Decimal literals: the texts from which numbers are read.

* A literal is an optional sign, then digits with at most one point among or around them, then an
  optional exponent (`NumberLiteral.read?`); or, in any mix of cases, the name of an infinity or
  of a NaN, the latter with an optional run of digits as payload.
-/

namespace RecordQuery

/-- What a number's text says, before it is rounded to any format. -/
inductive NumberLiteral where
  /-- The coefficient times ten to the exponent. -/
  | scaled (negative : Bool) (coefficient : Nat) (exponent : Int)
  | infinite (negative : Bool)
  /-- A NaN; a signaling one may not be compared. The payload is zero if none is written. -/
  | nan (negative signaling : Bool) (payload : Nat)
deriving DecidableEq, Repr

namespace NumberLiteral

/-- The sign in front of a text, and the rest: no sign is a plus. -/
def readSign : Text → Bool × Text
  | '-' :: rest => (true, rest)
  | '+' :: rest => (false, rest)
  | rest => (false, rest)

/-- The exponent at the end of a literal: nothing, or a mark with a signed numeral behind it. -/
def readExponent? : Text → Option Int
  | [] => some 0
  | mark :: rest =>
    if mark.toLower = 'e' then
      let (negative, digits) := readSign rest
      (Text.numeralValue? digits).map fun n => if negative then -(n : Int) else n
    else none

/-- The digits of a literal and its exponent. A point lowers the exponent by the digits behind it. -/
def readScaled? (negative : Bool) (t : Text) : Option NumberLiteral := do
  let whole := t.takeWhile Char.isDigit
  let (fraction, rest) :=
    match t.dropWhile Char.isDigit with
    | '.' :: rest => (rest.takeWhile Char.isDigit, rest.dropWhile Char.isDigit)
    | rest => ([], rest)
  let coefficient ← Text.numeralValue? (whole ++ fraction)
  let exponent ← readExponent? rest
  return scaled negative coefficient (exponent - fraction.length)

/-- The payload behind the name of a NaN. -/
def readPayload? (digits : Text) : Option Nat :=
  if digits.isEmpty then some 0 else Text.numeralValue? digits

/-- Reads a whole text as a literal. -/
def read? (t : Text) : Option NumberLiteral :=
  let (negative, body) := readSign t
  match body.map Char.toLower with
  | ['i', 'n', 'f'] => some (infinite negative)
  | ['i', 'n', 'f', 'i', 'n', 'i', 't', 'y'] => some (infinite negative)
  | 'n' :: 'a' :: 'n' :: digits => (readPayload? digits).map (nan negative false)
  | 's' :: 'n' :: 'a' :: 'n' :: digits => (readPayload? digits).map (nan negative true)
  | _ => readScaled? negative body

end NumberLiteral

end RecordQuery
