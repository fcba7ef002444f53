import RecordQuery.Filter.Script
import RecordQuery.Filter.Token
import RecordQuery.Request.Relation
import RecordQuery.Value.Equality

/-!
Requests for a list of records.

* `Request` has a slot each for the filter, the selected fields, the sort order and the page. A
  `Change` replaces one slot, or is made only under a condition; `Request.apply` leaves nothing
  behind if the change fails.
* `Request.params` lists the parameters, with a key for each slot that says something, and derives
  the relations to expand from the selected fields.
* `Prepared` keeps the parameters together with the filter and its values, which the parameters do
  not hold.
-/

namespace RecordQuery

/-- The parameters of a request, in the order in which they are sent. -/
abbrev Params := Table Text Value

/-- The number of a page, null for none, and the number of records on it. -/
structure Paging where
  page : Value
  perPage : Value

/-- What a request asks for. -/
structure Request where
  settings : Settings := {}
  /-- The name of the record type that the answer holds. -/
  recordType : Option Text := none
  filter : OpenFilter := {}
  fields : List Value := []
  sort : List Value := []
  paging : Option Paging := none

/-- A change to a request. -/
inductive Change where
  /-- A new filter: what the script writes, with values and ordinals of its own. -/
  | filter (script : Script)
  | fields (items : Value)
  | sort (items : Value)
  /-- The page, and how many records a page has; null is the number of the settings. -/
  | page (page perPage : Value)
  | onlyIf (condition : Value) (change : Change)

namespace Request

/-- The items of a value, as a selection takes them. -/
def itemsOf (v : Value) : Except Fault (List Value) :=
  match v.items? with
  | some items => .ok items
  | none => .error (.noItems v.kind)

/-- The request after a change. -/
def apply (r : Request) : Change → Except Fault Request
  | .filter script =>
    let outcome := script.perform {}
    match outcome.fault with
    | some fault => .error fault
    | none =>
      .ok { r with filter := ⟨outcome.text, outcome.placeholders.values⟩ }
  | .fields items => (itemsOf items).map fun fields => { r with fields }
  | .sort items => (itemsOf items).map fun sort => { r with sort }
  | .page page perPage =>
    let perPage := if perPage.isNull then .int r.settings.perPage else perPage
    .ok { r with paging := some ⟨page, perPage⟩ }
  | .onlyIf condition change => if condition.holds then r.apply change else .ok r

/-- The texts of items that are to be joined, of which the first has the given index. -/
def textsFrom (index : Nat) : List Value → Except Fault (List Text)
  | [] => .ok []
  | item :: items =>
    match item.asText? with
    | none => .error (.notJoinable index item.kind)
    | some t => (textsFrom (index + 1) items).map (t :: ·)

/-- The items with commas between them. -/
def commaJoined (items : List Value) : Except Fault Text :=
  (textsFrom 0 items).map (Text.joined [','])

/-- The relations to expand for the selected fields. -/
def relations (r : Request) : List Text := r.settings.relations (r.fields.map Value.display)

/-- The relations to expand for the items of a value, without a request around them. An item with too
many digits has no relations. -/
def relationsOf (settings : Settings) (fields : Value) : Except Fault (List Text) := do
  let paths ← (← itemsOf fields).mapM Value.displayed
  return settings.relations paths

/-- A parameter that is sent only if it says something. -/
def param (name : Text) (present : Bool) (value : Value) : Params :=
  if present then [(name, value)] else []

/-- The parameters of a request. -/
def params (r : Request) : Except Fault Params := do
  let fields ← commaJoined r.fields
  let sort ← commaJoined r.sort
  let page := (r.paging.map Paging.page).getD .null
  return param "filter" (r.filter.query ≠ []) (.text r.filter.query)
    ++ param "fields" (!r.fields.isEmpty) (.text fields)
    ++ param "expand" (r.relations ≠ []) (.text (Text.joined [','] r.relations))
    ++ param "sort" (!r.sort.isEmpty) (.text sort)
    ++ param "page" (!page.isNull) page
    ++ param "perPage" r.paging.isSome ((r.paging.map Paging.perPage).getD .null)

/-- What is logged about the parameters: their keys. -/
def paramsLine (params : Params) : LogLine :=
  let keys : Text := if params.isEmpty then "<none>" else Text.joined ", " params.keys
  ⟨.debug, "Built query params: " ++ keys⟩

/-- The parameters of a request, with a line about them in the log. -/
def assemble (r : Request) : Logged (Except Fault Params) :=
  match r.params with
  | .ok params => ⟨.ok params, [paramsLine params]⟩
  | .error fault => ⟨.error fault, []⟩

end Request

/-- The parameters of a request together with what they do not hold. A client may put anything into
both tables that can be a key. -/
structure Prepared where
  params : Entries
  /-- The text of the filter. -/
  query : Text
  /-- The values of the filter. -/
  values : Entries
  recordType : Option Text

/-- A request made ready to be sent. -/
def Request.prepare (r : Request) : Logged (Except Fault Prepared) :=
  let assembled := r.assemble
  ⟨assembled.result.map fun params =>
      { params := .ofTexts params
        query := r.filter.query
        values := .ofTexts r.filter.values
        recordType := r.recordType },
    assembled.log⟩

namespace Prepared

/-- The filter with its values. Only a text can be the key of a token. -/
def filter (p : Prepared) : OpenFilter := ⟨p.query, Value.textEntries p.values.list⟩

/-- All parts as one value: the parameters, the filter, and the record type. -/
def asValue (p : Prepared) : Value :=
  .tuple [.mapping p.params.list, .tuple [.text p.query, .mapping p.values.list],
    (p.recordType.map Value.text).getD .null]

/-- Compares parameters, filter and record type, in this order. -/
def equate (p q : Prepared) : Except Fault Bool := p.asValue.equate q.asValue

/-- A prepared request holds tables, so it cannot be the key of one. -/
def keyFault : Fault := .noKey "BuildResult"

end Prepared

end RecordQuery
