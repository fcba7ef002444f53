/-!
Texts and the numerals written in them.

* `Text` is a list of characters. The rules of this library on texts are recursions on that list,
  and `String` appears only at its edge.
* `numeral`, `signedNumeral`, `padded` and `hexadecimal` are the number texts that all formats
  below share; `numeralValue?` reads the first of them back.
* An integer of a caller's is only written if it has no more digits than `digitLimit`
  (`exceedsLimit`).
-/

namespace RecordQuery

/-- A text is the list of its characters. -/
abbrev Text := List Char

instance : Coe String Text := ⟨String.toList⟩

namespace Text

/-- The decimal digits of a natural number, without leading zeros. -/
def numeral (n : Nat) : Text := Nat.toDigits 10 n

/-- The decimal digits of an integer, after a minus sign if it is negative. -/
def signedNumeral (n : Int) : Text :=
  if n < 0 then '-' :: numeral n.natAbs else numeral n.natAbs

/-- The most digits that an integer may have if it is to be written. -/
def digitLimit : Nat := 4300

/-- The integer has more digits than are written. -/
def exceedsLimit (n : Int) : Bool := digitLimit < (numeral n.natAbs).length

/-- The decimal digits of a number, filled up with zeros on the left to a width. -/
def padded (width n : Nat) : Text := (numeral n).leftpad width '0'

/-- The lower-case base-sixteen digits of a number, filled up with zeros to a width. -/
def hexadecimal (width n : Nat) : Text := (Nat.toDigits 16 n).leftpad width '0'

/-- The number that a text of decimal digits denotes; `none` if it is empty or holds anything else. -/
def numeralValue? (t : Text) : Option Nat :=
  if t.isEmpty || !t.all Char.isDigit then none else some (Nat.ofDigitChars 10 t 0)

/-- The parts of a text between the occurrences of a character: one more than there are of those. -/
def segments (separator : Char) (t : Text) : List Text := t.splitOn separator

/-- The parts one after the other, with a separator between neighbours. -/
def joined (separator : Text) (parts : List Text) : Text := separator.intercalate parts

/-- Puts a text into its place among texts in ascending order, unless it is there already. The order
is that of code points, character by character. -/
def insertSorted (t : Text) : List Text → List Text
  | [] => [t]
  | u :: us => if u < t then u :: insertSorted t us else if t = u then u :: us else t :: u :: us

/-- The texts in ascending order, each once. -/
def sorted (ts : List Text) : List Text := ts.foldr insertSorted []

/-- The bytes of a text in UTF-8. -/
def utf8 (t : Text) : List UInt8 := t.flatMap String.utf8EncodeChar

end Text

end RecordQuery
