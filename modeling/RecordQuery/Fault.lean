import RecordQuery.Filter.Role
import RecordQuery.Text.Quoted
import RecordQuery.Value.Basic

/-!
What can go wrong, as causes.

* `Fault` has a constructor for each cause, with what a message needs to name it.
* `Fault.message` is the one place where the causes are put into words.
* `Fault.report?` is the form in which the faults of this library's own are handed to a client.
-/

namespace RecordQuery

/-- Why a call cannot do what it was asked to do. -/
inductive Fault where
  /-- The role at hand has no call of that name. -/
  | missingCall (role : Role) (name : Text)
  /-- What is only to be read was called. -/
  | notCallable (view : Role.View)
  /-- Items were asked of a value that yields none. -/
  | noItems (kind : Kind)
  /-- Something of that type was to be the key of a table. -/
  | noKey (typeName : Text)
  /-- A signaling NaN was to be the key of a table. -/
  | signalingKey
  /-- A signaling NaN was compared with a number. -/
  | signalingComparison
  /-- A mapping to be written as JSON has a key of that kind. -/
  | jsonKey (kind : Kind)
  /-- Filter text was to be continued with something else than a text. -/
  | notText (kind : Kind)
  /-- Texts were to be joined, and the item at that place is none. -/
  | notJoinable (index : Nat) (kind : Kind)
  /-- An instant lies outside the calendar. -/
  | instantOutOfRange
  /-- An integer has too many digits to be written. -/
  | tooManyDigits
  /-- No operator has that sign. -/
  | operatorText (t : Text)
  /-- No operator has that name. -/
  | operatorName (t : Text)
  /-- A setting was to be changed in place. -/
  | fixedSetting (name : Text)
  /-- A part of the prepared request was asked for before there was one. -/
  | notPrepared (part : Text)
  /-- The placeholders with these keys have no value. -/
  | unbound (keys : List Text)
  /-- A fault that a caller reports in this library's name. -/
  | general (message : Text)
deriving DecidableEq

namespace Fault

/-- The fault in words. -/
def message : Fault → Text
  | missingCall role name => "'" ++ role.name ++ "' object has no attribute '" ++ name ++ "'"
  | notCallable .query => "'" ++ Kind.text.name ++ "' object is not callable"
  | notCallable .values => "'" ++ Kind.mapping.name ++ "' object is not callable"
  | noItems kind => "'" ++ kind.name ++ "' object is not iterable"
  | noKey typeName => "unhashable type: '" ++ typeName ++ "'"
  | signalingKey => "Cannot hash a signaling NaN value"
  | signalingComparison => "[<class 'decimal.InvalidOperation'>]"
  | jsonKey kind => "keys must be str, int, float, bool or None, not " ++ kind.name
  | notText kind => "can only concatenate str (not \"" ++ kind.name ++ "\") to str"
  | notJoinable index kind =>
    "sequence item " ++ Text.numeral index ++ ": expected str instance, " ++ kind.name ++ " found"
  | instantOutOfRange => "date value out of range"
  | tooManyDigits =>
    "Exceeds the limit (" ++ Text.numeral Text.digitLimit ++ " digits) for integer string conversion; "
      ++ "use sys.set_int_max_str_digits() to increase the limit"
  | operatorText t => Text.inspected t ++ " is not a valid FilterOperator"
  | operatorName t => Text.inspected t
  | fixedSetting name => "cannot assign to field " ++ Text.inspected name
  | notPrepared part => "'" ++ Kind.null.name ++ "' object has no attribute '" ++ part ++ "'"
  | unbound keys => "No value bound for placeholder(s): " ++ Text.joined ", " keys
  | general message => message

/-- The fields of a client's error answer, for the faults that have one: a code, the message, and
the keys without a value. -/
def report? (fault : Fault) : Option (List (Text × Value)) :=
  match fault with
  | unbound keys =>
    some [("error", .text "UNBOUND_PLACEHOLDER"), ("message", .text fault.message),
      ("keys", .list (keys.map .text))]
  | general _ => some [("error", .text "PocketBaseParamsError"), ("message", .text fault.message)]
  | _ => none

end Fault

namespace Operator

/-- The operator with a given sign, or the fault that there is none. -/
def withText (t : Text) : Except Fault Operator :=
  match ofText? t with
  | some op => .ok op
  | none => .error (.operatorText t)

/-- The operator with a given name, or the fault that there is none. -/
def withName (t : Text) : Except Fault Operator :=
  match ofName? t with
  | some op => .ok op
  | none => .error (.operatorName t)

end Operator

end RecordQuery
