import RecordQuery.Filter.Literal
import RecordQuery.Filter.Placeholder

/-!
Tokens in a filter text, and putting values in their place.

* A token is an opening brace with a colon, a key of at least one character, and the first closing
  brace behind them. `Filter.pieces` cuts a text into tokens and the characters around them, in one
  pass from the left, and loses nothing (`Filter.flatMap_text_pieces`).
* `OpenFilter.fill` writes the literal of a value for every token that has one, and leaves the
  others as they are. It fails at the first value that has no literal. What it writes is not read
  again.
* `OpenFilter.close` either warns of the tokens without a value or refuses them.
-/

namespace RecordQuery

/-- How much a line of the log matters. -/
inductive LogLevel where
  | debug
  | warning
deriving DecidableEq, Repr

/-- The name of a level in the log. -/
def LogLevel.name : LogLevel → Text
  | debug => "DEBUG"
  | warning => "WARNING"

/-- A line of the log. -/
structure LogLine where
  level : LogLevel
  message : Text
deriving DecidableEq

/-- A result, with the lines that were logged on the way to it. -/
structure Logged (α : Type) where
  result : α
  log : List LogLine

namespace Filter

/-- A part of a filter text: a character, or a token with its key. -/
inductive Piece where
  | char (c : Char)
  | token (key : Text)
deriving DecidableEq

namespace Piece

/-- The text of the piece. -/
def text : Piece → Text
  | char c => [c]
  | token key => placeholder key

/-- The key of the piece, if it is a token. -/
def key? : Piece → Option Text
  | char _ => none
  | token key => some key

end Piece

/-- The key of the token with which the text begins, and the text behind it. -/
def readToken? : Text → Option (Text × Text)
  | '{' :: ':' :: rest =>
    let key := rest.takeWhile (· ≠ '}')
    match rest.dropWhile (· ≠ '}') with
    | [] => none
    | _ :: after => if key = [] then none else some (key, after)
  | _ => none

/-- A text that begins with a token is that token and what is behind it. -/
theorem eq_append_of_readToken? {t key after : Text} (h : readToken? t = some (key, after)) :
    t = placeholder key ++ after := by
  unfold readToken? at h
  split at h
  case h_1 rest =>
    split at h
    · simp at h
    case h_2 brace tail hdrop =>
      obtain ⟨-, rfl, rfl⟩ : _ ∧ rest.takeWhile (· ≠ '}') = key ∧ tail = after := by
        simpa using h
      have hbrace : brace = '}' := by
        have hstop := List.head?_dropWhile_not (· ≠ '}') rest
        rw [hdrop] at hstop
        simpa using hstop
      have hrest := List.takeWhile_append_dropWhile (p := (· ≠ '}')) (l := rest)
      rw [hdrop, hbrace] at hrest
      calc '{' :: ':' :: rest
          = '{' :: ':' :: (rest.takeWhile (· ≠ '}') ++ '}' :: tail) := by rw [hrest]
        _ = placeholder (rest.takeWhile (· ≠ '}')) ++ tail := by simp [placeholder]
  case h_2 => simp at h

/-- Behind a token there is less text than before. -/
theorem length_lt_of_readToken? {t key after : Text} (h : readToken? t = some (key, after)) :
    after.length < t.length := by
  rw [eq_append_of_readToken? h]
  simp [placeholder]
  omega

/-- The tokens of a text and the characters around them, from left to right. -/
def pieces : Text → List Piece
  | [] => []
  | c :: rest =>
    match _h : readToken? (c :: rest) with
    | some (key, after) => .token key :: pieces after
    | none => .char c :: pieces rest
termination_by t => t.length
decreasing_by
  · exact length_lt_of_readToken? ‹_›
  · exact Nat.lt_succ_self rest.length

/-- Cutting a text into pieces loses nothing. -/
theorem flatMap_text_pieces (t : Text) : (pieces t).flatMap Piece.text = t := by
  fun_induction pieces t with
  | case1 => rfl
  | case2 c rest key after h ih =>
    rw [List.flatMap_cons, ih]
    exact (eq_append_of_readToken? h).symm
  | case3 c rest h ih => rw [List.flatMap_cons, ih]; rfl

/-- The keys of the tokens of a text, from left to right. -/
def tokenKeys (t : Text) : List Text := (pieces t).filterMap Piece.key?

/-- A piece with its value put in: the literal of the value for a token that has one, and otherwise
the piece as it is. -/
def fillPiece (values : Table Text Value) (p : Piece) : Except Fault Text :=
  match p.key?.bind values.get? with
  | some value => value.literal
  | none => .ok p.text

/-- The pieces one after the other, each with its value put in. -/
def fillPieces (values : Table Text Value) : List Piece → Except Fault Text
  | [] => .ok []
  | p :: ps => do
    let first ← fillPiece values p
    let rest ← fillPieces values ps
    return first ++ rest

end Filter

/-- A filter text whose tokens still stand for values, and the values. -/
structure OpenFilter where
  query : Text := []
  values : Table Text Value := []

namespace OpenFilter

/-- The text with a literal in the place of every token that has a value. -/
def fill (f : OpenFilter) : Except Fault Text :=
  Filter.fillPieces f.values (Filter.pieces f.query)

/-- The keys of the tokens that have no value, each once, in the order of their first tokens. -/
def unboundKeys (f : OpenFilter) : List Text :=
  ((Filter.tokenKeys f.query).filter fun key => (f.values.get? key).isNone).eraseDups

/-- The warning about tokens that keep their place. -/
def unboundWarning (keys : List Text) : LogLine :=
  ⟨.warning, "Unbound filter placeholder(s): " ++ Text.joined ", " keys⟩

/-- The text with its values put in. Tokens without a value are refused if `strict` is set, and
otherwise they stay and are warned of. -/
def close (strict : Bool) (f : OpenFilter) : Logged (Except Fault Text) :=
  match f.fill with
  | .error fault => ⟨.error fault, []⟩
  | .ok filled =>
    match f.unboundKeys with
    | [] => ⟨.ok filled, []⟩
    | keys =>
      if strict then ⟨.error (.unbound keys), []⟩ else ⟨.ok filled, [unboundWarning keys]⟩

/-- A filter holds a table, so it cannot be the key of one. -/
def keyFault : Fault := .noKey "RawFilter"

end OpenFilter

end RecordQuery
