import RecordQuery.Text

/-!
The words of the filter language.

* `Relation` is how a comparison compares, and `Operator` says besides whether one element of a
  multi-valued field is enough for it.
* `Combinator` joins two terms.
* `Moment` is a moment that the server fills in when it reads the filter.
-/

namespace RecordQuery

/-- How a field is compared with a value. -/
inductive Relation where
  | equal
  | notEqual
  | greaterThan
  | greaterThanOrEqual
  | lessThan
  | lessThanOrEqual
  | like
  | notLike
deriving DecidableEq, Repr

namespace Relation

/-- The relations in the order in which they are listed. -/
def all : List Relation :=
  [equal, notEqual, greaterThan, greaterThanOrEqual, lessThan, lessThanOrEqual, like, notLike]

/-- The sign that stands for the relation. -/
def text : Relation → Text
  | equal => ['=']
  | notEqual => ['!', '=']
  | greaterThan => ['>']
  | greaterThanOrEqual => ['>', '=']
  | lessThan => ['<']
  | lessThanOrEqual => ['<', '=']
  | like => ['~']
  | notLike => ['!', '~']

/-- The name of the relation. -/
def name : Relation → Text
  | equal => "EQUAL"
  | notEqual => "NOT_EQUAL"
  | greaterThan => "GREATER_THAN"
  | greaterThanOrEqual => "GREATER_THAN_OR_EQUAL"
  | lessThan => "LESS_THAN"
  | lessThanOrEqual => "LESS_THAN_OR_EQUAL"
  | like => "LIKE"
  | notLike => "NOT_LIKE"

end Relation

/-- A comparison operator: a relation, to be met by the field's value or, if `any` is set, by any
one of its values. -/
structure Operator where
  any : Bool
  relation : Relation
deriving DecidableEq, Repr

namespace Operator

/-- The operators in the order in which they are listed: first those on a single value. -/
def all : List Operator :=
  Relation.all.map (Operator.mk false) ++ Relation.all.map (Operator.mk true)

/-- The sign of the operator. A question mark in front asks for any one value. -/
def text (op : Operator) : Text :=
  if op.any then '?' :: op.relation.text else op.relation.text

/-- The name of the operator. -/
def name (op : Operator) : Text :=
  if op.any then "ANY_" ++ op.relation.name else op.relation.name

/-- The name under which the operator is called in a chain. -/
def callName (op : Operator) : Text := op.name.map Char.toLower

/-- The operator with a given sign. -/
def ofText? (t : Text) : Option Operator := all.find? (·.text = t)

/-- The operator with a given name. -/
def ofName? (t : Text) : Option Operator := all.find? (·.name = t)

/-- The operator that a chain calls by a given name. -/
def ofCallName? (t : Text) : Option Operator := all.find? (·.callName = t)

end Operator

/-- How two neighbouring terms are joined. -/
inductive Combinator where
  | and
  | or
deriving DecidableEq, Repr

/-- The combinator as it stands between two terms. -/
def Combinator.text : Combinator → Text
  | and => [' ', '&', '&', ' ']
  | or => [' ', '|', '|', ' ']

/-- A moment relative to the time at which the server reads the filter. -/
inductive Moment where
  | now
  | yesterday
  | tomorrow
  | todayStart
  | todayEnd
  | monthStart
  | monthEnd
  | yearStart
  | yearEnd
  | second
  | minute
  | hour
  | day
  | month
  | year
  | weekday
deriving DecidableEq, Repr

namespace Moment

/-- The moments that can be named, in the order of their names. -/
def all : List Moment :=
  [day, hour, minute, month, monthEnd, monthStart, now, second, todayEnd, todayStart, tomorrow,
    weekday, year, yearEnd, yearStart, yesterday]

/-- The name of the moment in a filter. -/
def text : Moment → Text
  | now => "@now"
  | yesterday => "@yesterday"
  | tomorrow => "@tomorrow"
  | todayStart => "@todayStart"
  | todayEnd => "@todayEnd"
  | monthStart => "@monthStart"
  | monthEnd => "@monthEnd"
  | yearStart => "@yearStart"
  | yearEnd => "@yearEnd"
  | second => "@second"
  | minute => "@minute"
  | hour => "@hour"
  | day => "@day"
  | month => "@month"
  | year => "@year"
  | weekday => "@weekday"

/-- The moment with a given name. -/
def ofText? (t : Text) : Option Moment := all.find? (·.text = t)

end Moment

end RecordQuery
