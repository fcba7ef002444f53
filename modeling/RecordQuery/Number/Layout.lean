import RecordQuery.Number.Shortest

/-!
How numbers are laid out as texts.

* `positional` and `scientific` place the point in a run of digits.
* `Binary64.text` writes the shortest digits, positionally from `10 ^ -4` up to below `10 ^ 16` and
  always with a fraction, outside of that range with an exponent of at least two digits.
* `Decimal.text` keeps all digits of the coefficient. It is positional unless the exponent is
  positive or the number lies below `10 ^ -6`.
-/

namespace RecordQuery

namespace Layout

/-- The digits with a point behind the first `point` of them. Zeros fill the gap when the point
lies outside, and there is no point behind the last digit. -/
def positional (digits : Text) (point : Int) : Text :=
  if point ≤ 0 then "0." ++ List.replicate (-point).toNat '0' ++ digits
  else if digits.length ≤ point then
    digits ++ List.replicate (point - digits.length).toNat '0'
  else digits.take point.toNat ++ '.' :: digits.drop point.toNat

/-- The digits with a point behind the first of them, if there are more. -/
def leading : Text → Text
  | [] => []
  | [digit] => [digit]
  | digit :: rest => digit :: '.' :: rest

/-- The digits as a number below ten, and behind the mark the power of ten with its sign. -/
def scientific (digits : Text) (mark : Char) (width : Nat) (exponent : Int) : Text :=
  leading digits ++ mark :: (if exponent < 0 then '-' else '+') ::
    Text.padded width exponent.natAbs

/-- A minus sign in front of the text of a negative number. -/
def signed (negative : Bool) (t : Text) : Text := if negative then '-' :: t else t

end Layout

open Layout

/-- The shortest text that reads back to the number. -/
def Binary64.text : Binary64 → Text
  | nan _ => "nan"
  | infinite negative => signed negative "inf"
  | finite negative significand exponent =>
    if significand = 0 then signed negative "0.0"
    else
      let (coefficient, scale) := shortest significand exponent
      let digits := Text.numeral coefficient
      let point := digits.length + scale
      signed negative <|
        if -4 < point ∧ point ≤ 16 then
          if digits.length ≤ point then positional digits point ++ ".0" else positional digits point
        else scientific digits 'e' 2 (point - 1)

/-- The text of a decimal number, from which its digits and exponent can be read again. -/
def Decimal.text : Decimal → Text
  | infinite negative => signed negative "Infinity"
  | nan negative signaling payload _ =>
    signed negative <| (if signaling then "sNaN" else "NaN") ++
      if payload = 0 then [] else Text.numeral payload
  | finite negative coefficient exponent =>
    let digits := Text.numeral coefficient
    let point := digits.length + exponent
    signed negative <|
      if exponent ≤ 0 ∧ -6 < point then positional digits point
      else scientific digits 'E' 1 (point - 1)

end RecordQuery
