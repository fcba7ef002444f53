import RecordQuery.Form
import RecordQuery.Request.Basic

/-!
Requests as the query part of a link.

* `Params.linkPairs` puts the parameters into their fixed order, and the caller's own pairs behind
  them, as far as they have a value.
* `Params.link` writes these pairs in form encoding: bytes as they are, any other value as it is
  displayed.
-/

namespace RecordQuery

/-- The bytes that stand for a value in a link. -/
def Value.formBytes : Value → List UInt8
  | bytes bs => bs
  | value => Text.utf8 value.display

namespace Params

/-- The parameters that a link holds, in their order. -/
def order : List Text := ["filter", "fields", "expand", "sort", "page", "perPage"]

/-- The pairs of a link: the known parameters that are present, then the extra pairs that have a
value. -/
def linkPairs (params : Params) (extra : List (Value × Value)) : List (Value × Value) :=
  (order.filterMap fun key => (Table.get? params key).map fun value => (.text key, value)) ++
    extra.filter fun pair => !pair.2.isNull

/-- The query part of a link. -/
def link (params : Params) (extra : List (Value × Value)) : Text :=
  Form.encode ((params.linkPairs extra).map fun (key, value) => (key.formBytes, value.formBytes))

end Params

end RecordQuery
