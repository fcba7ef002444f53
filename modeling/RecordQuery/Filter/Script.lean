import RecordQuery.Filter.Session

/-!
Chains of calls that write a filter.

* `Call` is a single call other than a group, and `Call.perform` is what it writes.
* `Script` is a sequence of calls with groups among them, whose bodies are scripts again. Each call
  says on which of the objects at hand it is made (`Handle`); the object's role decides whether it
  has the call at all.
* `Script.run` performs a script until a fault ends it, as the body of a group is performed, and
  `Script.reports` performs all its calls, as a caller does who catches every fault.
-/

namespace RecordQuery

/-- A call that writes to a filter, with its arguments as the caller passes them. -/
inductive Call where
  | compare (operator : Operator) (field value : Value)
  /-- Any of the fields is like the value. -/
  | search (fields value : Value)
  /-- The field equals any of the values. -/
  | isIn (field values : Value)
  /-- The field differs from all of the values. -/
  | isNotIn (field values : Value)
  /-- The field lies between two values, both included. -/
  | between (field low high : Value)
  /-- The field lies below the one or above the other value. -/
  | notBetween (field low high : Value)
  | isEmpty (field : Value)
  | isNotEmpty (field : Value)
  /-- Text that is written as it is. -/
  | verbatim (raw : Value)
  | combine (combinator : Combinator)
  /-- A call by a name for which there is none. -/
  | unknown (name : Text)

namespace Call

/-- The name by which a chain makes the call. -/
def name : Call → Text
  | compare op _ _ => op.callName
  | search .. => "search"
  | isIn .. => "in_"
  | isNotIn .. => "not_in"
  | between .. => "between"
  | notBetween .. => "not_between"
  | isEmpty _ => "is_null"
  | isNotEmpty _ => "is_not_null"
  | verbatim _ => "custom"
  | combine c => c.callName
  | unknown name => name

/-- The role that has the call, if either has. -/
def role? : Call → Option Role
  | combine _ => some .restricted
  | unknown _ => none
  | _ => some .full

/-- The role of the object that the call returns. -/
def nextRole : Call → Role
  | combine _ => .full
  | _ => .restricted

/-- Writes a comparison for each item of a value, in parentheses. Nothing is written if the value
yields no items. -/
def compareItems (p : Placeholders) (combinator : Combinator) (items : Value)
    (comparison : Value → Comparison) : Outcome :=
  match items.items? with
  | none => .failed p (.noItems items.kind)
  | some items => Comparison.writeAll combinator (items.map comparison) p

/-- Why an object of the given role does not make a call of that name. -/
def refusal (role : Role) (name : Text) : Fault :=
  match role, Role.View.ofName? name with
  | .full, some view => .notCallable view
  | _, _ => .missingCall role name

/-- What the call writes, made on an object whose role has it. -/
def perform (p : Placeholders) : Call → Outcome
  | compare op field value => Comparison.write ⟨field, op, value⟩ p
  | search fields value => compareItems p .or fields fun field => ⟨field, ⟨false, .like⟩, value⟩
  | isIn field values => compareItems p .or values fun value => ⟨field, ⟨false, .equal⟩, value⟩
  | isNotIn field values =>
    compareItems p .and values fun value => ⟨field, ⟨false, .notEqual⟩, value⟩
  | between field low high =>
    Comparison.writeAll .and [⟨field, ⟨false, .greaterThanOrEqual⟩, low⟩,
      ⟨field, ⟨false, .lessThanOrEqual⟩, high⟩] p
  | notBetween field low high =>
    Comparison.writeAll .or [⟨field, ⟨false, .lessThan⟩, low⟩,
      ⟨field, ⟨false, .greaterThan⟩, high⟩] p
  | isEmpty field => .wroteBehind field ['=', '\'', '\''] p
  | isNotEmpty field => .wroteBehind field ['!', '=', '\'', '\''] p
  | verbatim raw =>
    match raw.asText? with
    | some t => .wrote t p
    | none => .failed p (.notText raw.kind)
  | combine c => .wrote c.text p
  | unknown name => .failed p (refusal .full name)

/-- Makes the call on an object of the given role, which may not have it. -/
def performAs (role : Role) (c : Call) (p : Placeholders) : Outcome :=
  if c.role? = some role then c.perform p else .failed p (refusal role c.name)

end Call

/-- On which of the objects at hand a call is made. -/
inductive Handle where
  /-- The object that the last successful call returned. -/
  | latest
  /-- The builder with which the script began. -/
  | builder
  /-- The object that the call with that number returned; the builder has number zero. -/
  | state (index : Nat)
deriving DecidableEq, Repr

/-- The role of the object, given the roles of all objects at hand, the last one in front. -/
def Handle.role (objects : List Role) : Handle → Role
  | latest => objects.headD .full
  | builder => .full
  | state index => objects.reverse.getD index .full

/-- A sequence of calls. A group's body is performed between two parentheses. -/
inductive Script where
  | done
  | call (on : Handle) (call : Call) (rest : Script)
  | group (on : Handle) (body rest : Script)

/-- What a call answered, and the session after it. -/
structure Report where
  answer : Except Fault Role
  session : Session

namespace Script

/-- Performs the script until its end or a fault, with the roles of the objects at hand. -/
def run : Script → List Role → Placeholders → Outcome
  | done, _, p => .wrote [] p
  | call on c rest, objects, p =>
    (c.performAs (on.role objects) p).andThen (rest.run (c.nextRole :: objects))
  | group on body rest, objects, p =>
    match on.role objects with
    | .restricted => .failed p (.missingCall .restricted "group")
    | .full =>
      (((Outcome.wrote ['('] p).andThen (body.run [.full])).andThen (.wrote [')'])).andThen
        (rest.run (.restricted :: objects))

/-- Performs the script on a builder until its end or a fault. -/
def perform (script : Script) (p : Placeholders) : Outcome := script.run [.full] p

/-- The report on a call that returns an object of the given role, and the objects at hand after
it: a call that fails returns none. -/
def settle (s : Session) (o : Outcome) (role : Role) (objects : List Role) :
    Report × List Role :=
  match o.fault with
  | none => (⟨.ok role, s.after o⟩, role :: objects)
  | some fault => (⟨.error fault, s.after o⟩, objects)

/-- Performs all calls of the script, whatever becomes of them, and reports on each. -/
def reportsFrom : Script → List Role → Session → List Report
  | done, _, _ => []
  | call on c rest, objects, s =>
    let (report, objects) :=
      settle s (c.performAs (on.role objects) s.placeholders) c.nextRole objects
    report :: rest.reportsFrom objects report.session
  | group on body rest, objects, s =>
    let (report, objects) :=
      settle s ((group on body done).run objects s.placeholders) .restricted objects
    report :: rest.reportsFrom objects report.session

/-- Performs all calls of the script on a session, and reports on each. -/
def reports (script : Script) (s : Session) : List Report := script.reportsFrom [.full] s

/-- The session after all calls of the script. -/
def finish (script : Script) (s : Session) : Session :=
  ((script.reports s).getLast?.map Report.session).getD s

end Script

/-- Performs scripts one after the other, each with a text of its own, where each one continues with
the placeholders of the one before. The answer holds the session from which each script began. -/
def Placeholders.performAll (p : Placeholders) : List Script → List (Session × Script)
  | [] => []
  | script :: scripts =>
    let start : Session := { placeholders := p }
    (start, script) :: (script.finish start).placeholders.performAll scripts

end RecordQuery
