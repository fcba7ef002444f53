import RecordQuery.Text.Printable

/-!
The three ways in which a text is quoted.

* `literal` is the filter language's own: single quotes around, and a backslash in front of each
  single quote inside. Nothing else is escaped, backslashes included.
* `jsonString` is a JSON string that keeps every character from the space on, the quote and the
  backslash apart.
* `inspected` and `inspectedBytes` show a text or bytes as source text would: in single quotes
  unless only those occur inside, with characters that have no visible form written as escapes.
-/

namespace RecordQuery

namespace Text

/-- A backslash in front of every single quote. -/
def escapeQuotes (t : Text) : Text := t.flatMap fun c => if c = '\'' then ['\\', '\''] else [c]

/-- The text as a filter literal. -/
def literal (t : Text) : Text := '\'' :: escapeQuotes t ++ ['\'']

/-- How a character stands inside a JSON string. -/
def jsonEscape (c : Char) : Text :=
  if c = '"' then ['\\', '"']
  else if c = '\\' then ['\\', '\\']
  else if c = '\x08' then ['\\', 'b']
  else if c = '\t' then ['\\', 't']
  else if c = '\n' then ['\\', 'n']
  else if c = '\x0c' then ['\\', 'f']
  else if c = '\r' then ['\\', 'r']
  else if c.toNat < 0x20 then '\\' :: 'u' :: hexadecimal 4 c.toNat
  else [c]

/-- The text as a JSON string. -/
def jsonString (t : Text) : Text := '"' :: t.flatMap jsonEscape ++ ['"']

/-- The quote to put around a content: a double one if single ones occur inside and no double
ones. -/
def chosenQuote (t : Text) : Char := if '\'' ∈ t ∧ '"' ∉ t then '"' else '\''

/-- The escapes that texts and bytes have in common: the quote around, the backslash, and the three
white characters with a letter of their own. -/
def commonEscape? (quote c : Char) : Option Text :=
  if c = quote ∨ c = '\\' then some ['\\', c]
  else if c = '\t' then some ['\\', 't']
  else if c = '\n' then some ['\\', 'n']
  else if c = '\r' then some ['\\', 'r']
  else none

/-- How a character stands in an inspected text: as it is if it is printable, and otherwise as its
code point in two, four or eight digits. -/
def inspectedChar (quote c : Char) : Text :=
  (commonEscape? quote c).getD <|
    if isPrintable c then [c]
    else if c.toNat < 0x100 then '\\' :: 'x' :: hexadecimal 2 c.toNat
    else if c.toNat < 0x10000 then '\\' :: 'u' :: hexadecimal 4 c.toNat
    else '\\' :: 'U' :: hexadecimal 8 c.toNat

/-- The text as it is shown inside a list. -/
def inspected (t : Text) : Text :=
  let quote := chosenQuote t
  quote :: t.flatMap (inspectedChar quote) ++ [quote]

/-- How a byte stands among inspected bytes: as its ASCII character if that is visible. -/
def inspectedByte (quote : Char) (b : UInt8) : Text :=
  let c := Char.ofNat b.toNat
  (commonEscape? quote c).getD <|
    if 0x20 ≤ b.toNat ∧ b.toNat < 0x7F then [c] else '\\' :: 'x' :: hexadecimal 2 b.toNat

/-- The text of a run of bytes. -/
def inspectedBytes (bytes : List UInt8) : Text :=
  let quote := chosenQuote (bytes.map fun b => Char.ofNat b.toNat)
  'b' :: quote :: bytes.flatMap (inspectedByte quote) ++ [quote]

end Text

end RecordQuery
