import RecordQuery.Fault

/-!
Settings of requests.

* `Settings` holds the path segment that leads to a relation, the names that are always relations,
  and the number of records on a page. The names are a set: `Settings.same` does not see their
  order.
* `Settings.addNested` adds names; a setting is never changed in place.
-/

namespace RecordQuery

/-- What requests have in common. -/
structure Settings where
  /-- The path segment in front of a relation to be followed. -/
  marker : Text := "expand"
  /-- The names that are relations also at the end of a path. -/
  nested : List Text := ["preferences"]
  /-- The number of records on a page if no other is asked for. -/
  perPage : Int := 20

namespace Settings

/-- The settings with names added to those that are always relations. -/
def addNested (s : Settings) (names : List Text) : Settings :=
  { s with nested := s.nested ++ names }

/-- The names that are always relations, each once and in their order. -/
def sortedNested (s : Settings) : List Text := Text.sorted s.nested

/-- The same settings. -/
def same (s t : Settings) : Bool :=
  s.marker == t.marker && s.sortedNested == t.sortedNested && s.perPage == t.perPage

/-- A setting cannot be changed in place, whatever its name and the new value. -/
def assign (_ : Settings) (name : Text) (_ : Value) : Except Fault Settings :=
  .error (.fixedSetting name)

end Settings

end RecordQuery
