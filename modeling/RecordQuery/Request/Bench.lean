import RecordQuery.Request.Link
import RecordQuery.Request.Memory

/-!
A caller at work on one request.

* A `Bench` has the request under construction as it is held: the table of the filter's values in a
  place of its own, and the page as the objects that were handed over. `Bench.request` is what this
  comes to at present.
* A `Handover` is a `Change` together with the objects that come with it. Lists of items are copied
  (`Handover.settled`), and so is the table of a filter's values, but not the objects in it: these are
  kept (`Handover.kept`). Items that are no texts are refused by their kind, whatever is in them.
* An `Act` changes the request, reads something off it, works on the last prepared one, or changes
  what the caller has in his hands: an object, or a table that he was given (`Bench.lent`). These are
  the tables of filters while they were written, the parameters, and what was prepared.
* What works on a part of the prepared request fails as long as there is none.
-/

namespace RecordQuery

/-- The number of a page and of the records on it, as they are held. -/
structure HeldPaging where
  page : Held
  perPage : Held

/-- What one of the four slots of a request holds. -/
inductive Content where
  | filter (query : Text) (values : Keyed Held)
  | fields (items : List Value)
  | sort (items : List Value)
  | page (paging : Option HeldPaging)

/-- A change to a request, with the objects that are handed over for it. -/
inductive Handover where
  /-- A new filter. A key that is in `shared` stands for the object in the place given there, which
  is what the script puts aside under it. -/
  | filter (script : Script) (shared : Table Text Nat)
  | fields (items : Held)
  | sort (items : Held)
  | page (number perPage : Held)
  | onlyIf (condition : Held) (handover : Handover)

namespace Handover

/-- The change that is handed over, if it is made at present. -/
def change (m : Memory) : Handover → Change
  | filter script _ => .filter script
  | fields items => .fields (m.read items)
  | sort items => .sort (m.read items)
  | page number perPage => .page (m.read number) (m.read perPage)
  | onlyIf condition h => .onlyIf (m.read condition) (h.change m)

/-- The conditions of the change hold at present. -/
def holds (m : Memory) : Handover → Bool
  | onlyIf condition h => (m.read condition).holds && h.holds m
  | filter .. | fields _ | sort _ | page .. => true

/-- The values of a filter as they are held. -/
def share (shared : Table Text Nat) (values : Table Text Value) : Keyed Held :=
  .ofTexts (values.map fun (key, value) =>
    (key, ((Table.get? shared key).map Held.shared).getD (.fixed value)))

/-- What is kept of a change that has led to the request: objects that are kept as they are, and
otherwise what the request says. -/
def kept (r : Request) : Handover → Content
  | filter _ shared => .filter r.filter.query (share shared r.filter.values)
  | fields _ => .fields r.fields
  | sort _ => .sort r.sort
  | page number perPage =>
    .page (r.paging.map fun paging =>
      ⟨number, if perPage.isNull then .fixed paging.perPage else perPage⟩)
  | onlyIf _ h => h.kept r

/-- The change with a copy of what is read off the objects at once: lists of items and conditions. -/
def settled (m : Memory) : Handover → Handover
  | filter script shared => filter script shared
  | fields items => fields (.fixed (m.read items))
  | sort items => sort (.fixed (m.read items))
  | page number perPage => page number perPage
  | onlyIf condition h => onlyIf (.fixed (m.read condition)) (h.settled m)

end Handover

/-- What a caller does with a request. -/
inductive Act where
  | change (h : Handover)
  /-- An object of the caller becomes another one. -/
  | replace (place : Nat) (object : Mutable)
  /-- A table that was given to the caller becomes another one. -/
  | rewrite (place : Nat) (t : Keyed Held)
  | assemble
  | prepare
  | link (extra : List (Value × Value))
  /-- A value of the prepared filter is replaced or added. -/
  | putValue (key value : Value)
  /-- A prepared parameter is replaced or added. -/
  | putParam (key value : Value)
  /-- The prepared filter is filled in. -/
  | close (strict : Bool)
  /-- Whether the request, prepared anew, is the same as the prepared one. -/
  | compare
  /-- The prepared request is to be the key of a table. -/
  | keyByPrepared
  /-- The prepared filter is to be the key of a table. -/
  | keyByFilter

/-- What a caller gets back, as it is at that moment. -/
inductive Answer where
  | accepted
  | table (t : Entries)
  | prepared (p : Prepared)
  | text (t : Text)
  | verdict (b : Bool)

/-- A prepared request as it was handed out: its tables are found in their places. -/
structure Handout where
  params : Nat
  query : Text
  values : Nat
  recordType : Option Text

/-- What a handed out request is at present. -/
def Handout.prepared (p : Handout) (m : Memory) : Prepared :=
  { params := m.readTable (m.table p.params)
    query := p.query
    values := m.readTable (m.table p.values)
    recordType := p.recordType }

/-- The request under construction, and the last one that was prepared. -/
structure Bench where
  settings : Settings
  recordType : Option Text
  memory : Memory
  query : Text := []
  /-- The place of the values of the filter. -/
  values : Nat
  fields : List Value := []
  sort : List Value := []
  paging : Option HeldPaging := none
  /-- The places of the tables that the caller was given. -/
  lent : List Nat
  prepared : Option Handout := none

namespace Bench

/-- A new request in a memory, where the caller has some tables already. -/
def begin (m : Memory) (lent : List Nat) (settings : Settings) (recordType : Option Text) : Bench :=
  { settings, recordType, lent, memory := m.addTable [], values := m.next }

/-- The bench at the beginning of a first request. -/
def fresh (settings : Settings) (recordType : Option Text) : Bench :=
  begin {} [] settings recordType

/-- What the request under construction is at present. -/
def request (b : Bench) : Request :=
  { settings := b.settings
    recordType := b.recordType
    filter := ⟨b.query, Value.textEntries (b.memory.readTable (b.memory.table b.values)).list⟩
    fields := b.fields
    sort := b.sort
    paging := b.paging.map fun p => ⟨b.memory.read p.page, b.memory.read p.perPage⟩ }

/-- Gives the caller a new table. -/
def lend (b : Bench) (t : Keyed Held) : Bench :=
  { b with memory := b.memory.addTable t, lent := b.memory.next :: b.lent }

/-- The object that was handed over for a parameter, if it is one of the page. -/
def heldParam? (b : Bench) (key : Text) : Option Held :=
  b.paging.bind fun p =>
    if key = ("page" : Text) then some p.page
    else if key = ("perPage" : Text) then some p.perPage
    else none

/-- The parameters as they are handed out: what was handed over for the page is handed out again. -/
def holdParams (b : Bench) (params : Params) : Keyed Held :=
  .ofTexts (params.map fun (key, value) => (key, (b.heldParam? key).getD (.fixed value)))

/-- Hands a prepared request out: its parameters, and a copy of the values of the filter. -/
def handOut (b : Bench) (params : Params) : Bench :=
  { (b.lend (b.holdParams params)).lend (b.memory.table b.values) with
    prepared := some ⟨b.memory.next, b.query, b.memory.next + 1, b.recordType⟩ }

/-- The caller has the table of a filter that is written, whether or not the filter succeeds. -/
def openSession (b : Bench) : Handover → Bench
  | .filter script shared => b.lend (Handover.share shared (script.perform {}).placeholders.values)
  | .fields _ | .sort _ | .page .. => b
  | .onlyIf condition h => if (b.memory.read condition).holds then b.openSession h else b

/-- The request with another content of a slot. The values of a filter go to a new place. -/
def fill (b : Bench) : Content → Bench
  | .filter query values =>
    { b with query, memory := b.memory.addTable values, values := b.memory.next }
  | .fields fields => { b with fields }
  | .sort sort => { b with sort }
  | .page paging => { b with paging }

/-- The prepared request, of which a part is asked for. -/
def demand (b : Bench) (part : Text) : Except Fault Handout :=
  match b.prepared with
  | some p => .ok p
  | none => .error (.notPrepared part)

/-- Gives a key of a table of the prepared request a value, and answers with the table. -/
def revise (b : Bench) (place : Except Fault Nat) (key value : Value) :
    Logged (Except Fault Answer) × Bench :=
  match place with
  | .error fault => (⟨.error fault, []⟩, b)
  | .ok place =>
    match (b.memory.table place).put key (.fixed value) with
    | .error fault => (⟨.error fault, []⟩, b)
    | .ok t =>
      (⟨.ok (.table (b.memory.readTable t)), []⟩, { b with memory := b.memory.setTable place t })

/-- Performs an act. -/
def act (b : Bench) : Act → Logged (Except Fault Answer) × Bench
  | .change h =>
    let opened := b.openSession h
    match b.request.apply (h.change b.memory) with
    | .error fault => (⟨.error fault, []⟩, opened)
    | .ok r =>
      (⟨.ok .accepted, []⟩, if h.holds b.memory then opened.fill (h.kept r) else opened)
  | .replace place object =>
    (⟨.ok .accepted, []⟩, { b with memory := b.memory.setObject place object })
  | .rewrite place t =>
    (⟨.ok .accepted, []⟩,
      if place ∈ b.lent then { b with memory := b.memory.setTable place t } else b)
  | .assemble =>
    let assembled := b.request.assemble
    (⟨assembled.result.map fun params => .table (.ofTexts params), assembled.log⟩,
      (assembled.result.toOption.map fun params => b.lend (b.holdParams params)).getD b)
  | .prepare =>
    let made := b.request.prepare
    (⟨made.result.map .prepared, made.log⟩, (b.request.params.toOption.map b.handOut).getD b)
  | .link extra =>
    let assembled := b.request.assemble
    (⟨assembled.result.map fun params => .text (Params.link params extra), assembled.log⟩, b)
  | .putValue key value => b.revise ((b.demand "raw").map Handout.values) key value
  | .putParam key value => b.revise ((b.demand "params").map Handout.params) key value
  | .close strict =>
    match b.demand "raw" with
    | .error fault => (⟨.error fault, []⟩, b)
    | .ok p =>
      let closed := (p.prepared b.memory).filter.close strict
      (⟨closed.result.map .text, closed.log⟩, b)
  | .compare =>
    let made := b.request.prepare
    (⟨made.result.bind fun p =>
        match b.prepared with
        | some q => (p.equate (q.prepared b.memory)).map .verdict
        | none => .ok (.verdict false),
      made.log⟩, b)
  | .keyByPrepared => (⟨.error Prepared.keyFault, []⟩, b)
  | .keyByFilter => (⟨.error OpenFilter.keyFault, []⟩, b)

end Bench

end RecordQuery
