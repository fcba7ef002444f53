import RecordQuery.Text

/-!
Form encoding of pairs of byte strings.

* Letters, digits and `_`, `.`, `-`, `~` stand for themselves, a space is a plus sign, and any other
  byte is a percent sign with two upper-case hexadecimal digits (`Form.encodeByte`).
* `Form.encode` writes pairs with an equals sign between their parts and an ampersand between
  neighbours.
-/

namespace RecordQuery

namespace Form

/-- The byte stands for itself. -/
def isUnreserved (b : UInt8) : Bool :=
  let c := Char.ofNat b.toNat
  c.isAlphanum || c = '_' || c = '.' || c = '-' || c = '~'

/-- A byte in form encoding. -/
def encodeByte (b : UInt8) : Text :=
  if isUnreserved b then [Char.ofNat b.toNat]
  else if b = 0x20 then ['+']
  else '%' :: (Text.hexadecimal 2 b.toNat).map Char.toUpper

/-- Bytes in form encoding. -/
def encodeBytes (bytes : List UInt8) : Text := bytes.flatMap encodeByte

/-- A pair, with an equals sign between its parts. -/
def encodePair (pair : List UInt8 × List UInt8) : Text :=
  encodeBytes pair.1 ++ '=' :: encodeBytes pair.2

/-- Pairs in form encoding, with an ampersand between neighbours. -/
def encode (pairs : List (List UInt8 × List UInt8)) : Text :=
  Text.joined ['&'] (pairs.map encodePair)

end Form

end RecordQuery
