import RecordQuery.Filter.Placeholder

/-!
What calls write to a filter.

* An `Outcome` is the text that a call adds, the placeholders after it, and the fault that ended it,
  if one did. What was written before the fault stays. The text that is there already plays no part.
* `Comparison.write` writes one comparison: a moment by its name, any other value as a placeholder
  with the value put aside.
* `Comparison.writeAll` writes comparisons in parentheses, with a combinator between neighbours.
* `Session` is the filter between two calls. Several sessions may share the placeholders, one
  session after the other.
-/

namespace RecordQuery

/-- The moment that a value names, if it is the name of one. -/
def Value.moment? (v : Value) : Option Moment := v.asText?.bind Moment.ofText?

/-- What a call leaves: the text it wrote, the placeholders, and the fault that ended it, if one
did. -/
structure Outcome where
  text : Text
  placeholders : Placeholders
  fault : Option Fault

namespace Outcome

/-- The call went through and wrote a text. -/
def wrote (t : Text) (p : Placeholders) : Outcome := ⟨t, p, none⟩

/-- The call was ended by a fault and wrote nothing. -/
def failed (p : Placeholders) (fault : Fault) : Outcome := ⟨[], p, some fault⟩

/-- The call wrote a field, if the field has a text, and a text behind it. -/
def wroteBehind (field : Value) (t : Text) (p : Placeholders) : Outcome :=
  match field.displayed with
  | .ok name => wrote (name ++ t) p
  | .error fault => failed p fault

/-- Goes on with the placeholders, unless a fault has ended the call. -/
def andThen (o : Outcome) (next : Placeholders → Outcome) : Outcome :=
  match o.fault with
  | some _ => o
  | none =>
    let rest := next o.placeholders
    { rest with text := o.text ++ rest.text }

@[simp]
theorem andThen_failed (p : Placeholders) (fault : Fault) (next : Placeholders → Outcome) :
    (failed p fault).andThen next = failed p fault := rfl

theorem andThen_assoc (o : Outcome) (f g : Placeholders → Outcome) :
    (o.andThen f).andThen g = o.andThen fun p => (f p).andThen g := by
  obtain ⟨t, p, _ | fault⟩ := o
  · cases hf : (f p).fault <;> simp [andThen, hf]
  · rfl

end Outcome

/-- A field, an operator, and the value to compare with. -/
structure Comparison where
  field : Value
  operator : Operator
  value : Value

namespace Comparison

/-- Writes a comparison. -/
def write (c : Comparison) (p : Placeholders) : Outcome :=
  match c.value.moment? with
  | some moment => .wroteBehind c.field (c.operator.text ++ moment.text) p
  | none =>
    match p.add c.field c.value with
    | (.error fault, p) => .failed p fault
    | (.ok key, p) => .wroteBehind c.field (c.operator.text ++ placeholder key) p

/-- Writes comparisons, each with the combinator in front. -/
def writeRest (combinator : Combinator) : List Comparison → Placeholders → Outcome
  | [], p => .wrote [] p
  | c :: cs, p =>
    ((Outcome.wrote combinator.text p).andThen c.write).andThen (writeRest combinator cs)

/-- Writes comparisons with the combinator between neighbours. -/
def writeEach (combinator : Combinator) : List Comparison → Placeholders → Outcome
  | [], p => .wrote [] p
  | c :: cs, p => (c.write p).andThen (writeRest combinator cs)

/-- Writes comparisons in parentheses, with the combinator between neighbours. -/
def writeAll (combinator : Combinator) (cs : List Comparison) (p : Placeholders) : Outcome :=
  ((Outcome.wrote ['('] p).andThen (writeEach combinator cs)).andThen (.wrote [')'])

end Comparison

/-- A filter's text so far, and the values put aside for it. -/
structure Session where
  query : Text := []
  placeholders : Placeholders := {}

/-- The session after a call. -/
def Session.after (s : Session) (o : Outcome) : Session := ⟨s.query ++ o.text, o.placeholders⟩

end RecordQuery
