import RecordQuery.Filter.Operator

/-!
The two roles between which a chain of calls alternates.

* After a term only a combinator may follow (`Role.restricted`), and after a combinator any term
  (`Role.full`). `Role.offers` lists the names of the calls and views that each role has.
-/

namespace RecordQuery

/-- What the holder of a builder may call next. -/
inductive Role where
  | full
  | restricted
deriving DecidableEq, Repr

/-- The name under which a combinator is called in a chain. -/
def Combinator.callName : Combinator → Text
  | and => "and_"
  | or => "or_"

namespace Role

/-- The name of the role in messages. -/
def name : Role → Text
  | full => "FilterBuilder"
  | restricted => "RestrictedFilterBuilder"

/-- The calls besides the comparisons that make a term. -/
def termCalls : List Text :=
  ["search", "in_", "not_in", "between", "not_between", "is_null", "is_not_null", "custom", "group"]

/-- What can be read off a builder without a call. -/
inductive View where
  | query
  | values
deriving DecidableEq, Repr

/-- The name of the view. -/
def View.name : View → Text
  | query => "query"
  | values => "values"

/-- The view with a given name. -/
def View.ofName? (t : Text) : Option View := [query, values].find? (·.name = t)

/-- The role has something of that name. -/
def offers : Role → Text → Bool
  | full, t => (Operator.ofCallName? t).isSome || termCalls.contains t || (View.ofName? t).isSome
  | restricted, t => t == Combinator.and.callName || t == Combinator.or.callName

end Role

end RecordQuery
