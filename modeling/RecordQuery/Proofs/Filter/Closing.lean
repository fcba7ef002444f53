import RecordQuery.Proofs.Filter.Division

/-!
Closing a filter, told from the division of its text at its tokens.

* `Division.filled` is the text with a literal in the place of every token that has a value, and
  `Division.firstFault?` the fault of the first token whose value has no literal.
* `close_of_fault` and `close_of_literals`: a filter closes to that fault or, if there is none, to
  that text, unless tokens without a value are refused.
* `close_eq_substitute`: there is one division, and closing a filter whose values can be written
  fills it in.
* `close_cases`: which faults go before which, what is logged, and that values without a token play
  no part.
-/

namespace RecordQuery

namespace Filter

namespace Division

variable {d : Division} {values : Table Text Value} {literal : Text → Text}

/-- The text with the literals of values in the place of the tokens that have one. -/
def filled (d : Division) (values : Table Text Value) (literal : Text → Text) : Text :=
  d.substitute fun key => if values.keys.contains key then literal key else placeholder key

/-- The keys of tokens without a value, each where it comes first. -/
def missing (d : Division) (values : Table Text Value) : List Text :=
  (d.keys.filter fun key => !values.keys.contains key).eraseDups

/-- Every token that has a value has a literal of it. -/
def HasLiterals (d : Division) (values : Table Text Value) (literal : Text → Text) : Prop :=
  ∀ key ∈ d.keys, ∀ value, values.get? key = some value → value.literal = .ok (literal key)

/-- Why the value of a key cannot be written, if it has one and that is so. -/
def fault? (values : Table Text Value) (key : Text) : Option Fault :=
  match (values.get? key).map Value.literal with
  | some (.error fault) => some fault
  | _ => none

/-- The fault of the first token whose value cannot be written. -/
def firstFault? (d : Division) (values : Table Text Value) : Option Fault :=
  d.keys.findSome? (fault? values)

lemma fillPiece_token (values : Table Text Value) (key : Text) :
    fillPiece values (.token key)
      = ((values.get? key).map Value.literal).getD (.ok (placeholder key)) := by
  have hkey : (Piece.token key).key?.bind values.get? = values.get? key := rfl
  rw [fillPiece, hkey]
  cases values.get? key <;> rfl

/-- A token cannot be replaced for the fault of its value, and for nothing else. -/
lemma fillPiece_token_eq_error_iff {key : Text} {fault : Fault} :
    fillPiece values (.token key) = .error fault ↔ fault? values key = some fault := by
  rw [fillPiece_token, fault?]
  cases values.get? key with
  | none => simp
  | some value => cases hvalue : value.literal <;> simp [hvalue]

lemma fillPiece_token_of_literal {key : Text}
    (h : ∀ value, values.get? key = some value → value.literal = .ok (literal key)) :
    fillPiece values (.token key)
      = .ok (if values.keys.contains key then literal key else placeholder key) := by
  rw [fillPiece_token, Table.contains_keys]
  cases hget : values.get? key with
  | none => rfl
  | some value => exact h value hget

/-- If no value fails, there are literals of all of them. -/
lemma exists_hasLiterals (h : d.firstFault? values = none) :
    ∃ literal, d.HasLiterals values literal := by
  refine ⟨fun key => (((values.get? key).map Value.literal).bind Except.toOption).getD [], ?_⟩
  intro key hkey value hget
  have hfault := List.findSome?_eq_none_iff.1 h key hkey
  rw [fault?, hget] at hfault
  cases hvalue : value.literal with
  | ok t => simp [hget, hvalue, Except.toOption]
  | error fault => simp [hvalue] at hfault

end Division

/-- Values whose keys are those of no tokens are not put in. -/
lemma fillPieces_congr {values others : Table Text Value} {ps : List Piece}
    (h : ∀ key ∈ ps.filterMap Piece.key?, values.get? key = others.get? key) :
    fillPieces values ps = fillPieces others ps := by
  induction ps with
  | nil => rfl
  | cons p ps ih =>
      have hfirst : fillPiece values p = fillPiece others p := by
        cases p with
        | char c => rfl
        | token key =>
            rw [Division.fillPiece_token, Division.fillPiece_token, h key List.mem_cons_self]
      have hrest : ∀ key ∈ ps.filterMap Piece.key?, values.get? key = others.get? key :=
        fun key hkey => h key (List.filterMap_subset _ (List.subset_cons_self p ps) hkey)
      rw [fillPieces, fillPieces, hfirst, ih hrest]

end Filter

open RecordQuery.Filter

namespace OpenFilter

variable {f : OpenFilter} {d : Division}

lemma fill_eq (h : d.Divides f.query) : f.fill = fillPieces f.values d.pieces := by
  rw [fill, h.pieces_eq]

lemma unboundKeys_eq (h : d.Divides f.query) : f.unboundKeys = d.missing f.values := by
  have hkeys (key : Text) : (f.values.get? key).isNone = !f.values.keys.contains key := by
    rw [Table.contains_keys]
    cases f.values.get? key <;> rfl
  rw [unboundKeys, h.tokenKeys_eq, Division.missing]
  simp only [hkeys]

/-- The first value that cannot be written is told of in both ways of closing, and nothing else
is. -/
theorem close_of_fault {fault : Fault} (h : d.Divides f.query)
    (hfault : d.firstFault? f.values = some fault) (strict : Bool) :
    f.close strict = ⟨.error fault, []⟩ := by
  obtain ⟨before, key, behind, hkeys, hkey, hbefore⟩ := List.findSome?_eq_some_iff.1 hfault
  have hfill : f.fill = .error fault := by
    rw [fill_eq h]
    refine Division.fillPieces_of_fault hkeys (fun k hk => ?_)
      (Division.fillPiece_token_eq_error_iff.2 hkey)
    cases hfirst : fillPiece f.values (.token k) with
    | ok t => rfl
    | error other =>
        rw [Division.fillPiece_token_eq_error_iff, hbefore k hk] at hfirst
        cases hfirst
  rw [close, hfill]

/-- Where all values can be written, tokens without one are refused or warned of. -/
theorem close_of_literals {literal : Text → Text} (h : d.Divides f.query)
    (hliteral : d.HasLiterals f.values literal) (strict : Bool) :
    f.close strict =
      if d.missing f.values = [] then ⟨.ok (d.filled f.values literal), []⟩
      else if strict then ⟨.error (.unbound (d.missing f.values)), []⟩
      else ⟨.ok (d.filled f.values literal), [unboundWarning (d.missing f.values)]⟩ := by
  have hfill : f.fill = .ok (d.filled f.values literal) := by
    rw [fill_eq h]
    exact Division.fillPieces_pieces fun key hkey =>
      Division.fillPiece_token_of_literal (hliteral key hkey)
  rw [close_of_fill hfill, unboundKeys_eq h]

/-- Without values, the text stays as it is. -/
lemma result_close_of_values_eq_nil (h : d.Divides f.query) (hvalues : f.values = []) :
    (f.close false).result = .ok f.query := by
  have hliteral : d.HasLiterals f.values placeholder := by
    intro key _ value hget
    rw [hvalues] at hget
    cases hget
  have hfilled : d.filled f.values placeholder = f.query := by
    simp only [Division.filled, ite_self]
    exact h.text_eq
  rw [close_of_literals h hliteral, hfilled]
  split <;> rfl

/-- Values whose keys are those of no tokens play no part. -/
lemma close_congr {g : OpenFilter} (hquery : f.query = g.query)
    (hvalues : ∀ key ∈ tokenKeys f.query, f.values.get? key = g.values.get? key) (strict : Bool) :
    f.close strict = g.close strict := by
  have hfill : f.fill = g.fill := by
    rw [fill, fill, ← hquery]
    exact fillPieces_congr hvalues
  have hunbound : f.unboundKeys = g.unboundKeys := by
    rw [unboundKeys, unboundKeys, ← hquery]
    refine congrArg List.eraseDups (List.filter_congr fun key hkey => ?_)
    rw [hvalues key hkey]
  rw [close, close, hfill, hunbound]

/-- **Closing is substitution**: a filter text has one division at its tokens. Closing the filter
puts literals in the place of the tokens that have a value, if these can be written, and leaves the
others as they are. Without any values the text stays as it is. -/
theorem close_eq_substitute (f : OpenFilter) :
    ∃ d : Division, (∀ e : Division, e.Divides f.query ↔ e = d)
      ∧ (∀ literal : Text → Text,
          (∀ key ∈ d.keys, ∀ value, f.values.get? key = some value →
            value.literal = .ok (literal key)) →
          (f.close false).result = .ok (d.substitute fun key =>
            if f.values.keys.contains key then literal key else placeholder key))
      ∧ (({ f with values := [] } : OpenFilter).close false).result = .ok f.query := by
  have h := Division.divides_ofPieces f.query
  refine ⟨.ofPieces (pieces f.query), fun e => Division.divides_iff, fun literal hliteral => ?_,
    result_close_of_values_eq_nil h rfl⟩
  rw [close_of_literals h hliteral]
  split <;> rfl

/-- An opening without a key stands in front of a token, one key is the beginning of another, and
one has an opening inside. One value reads like a token, and one is null. -/
def nestedFilter : OpenFilter where
  query := "{:}{:n1}={:n10}\x7b:{:a}"
  values := [(['n', '1'], .text "{:n10}"), (['n', '1', '0'], .null)]

/-- The literal of the first value is not read again, and the last token stays. -/
theorem close_nestedFilter :
    (nestedFilter.close false).result = .ok "{:}'{:n10}'=null\x7b:{:a}" := by
  obtain ⟨d, hd, hclose, -⟩ := close_eq_substitute nestedFilter
  have hdivides : Division.Divides ⟨"{:}", [(['n', '1'], ['=']), (['n', '1', '0'], []),
      (['{', ':', 'a'], [])]⟩ nestedFilter.query := Division.divides_iff.2 (by cbv)
  obtain rfl := (hd _).1 hdivides
  refine hclose (fun key => if key = ['n', '1'] then "'{:n10}'" else "null") ?_
  intro key hkey value hget
  simp only [Division.keys, Table.keys, List.map_cons, List.map_nil, List.mem_cons,
    List.not_mem_nil, or_false] at hkey
  rcases hkey with rfl | rfl | rfl <;> cases hget <;> rfl

/-- **One fault, one warning or none**: the first value that cannot be written is the fault of both
ways of closing, whichever tokens have no value. Otherwise tokens without a value, each told of once
and in the order in which they come first, are warned of or refused. Values without a token play no
part. -/
theorem close_cases (h : d.Divides f.query) :
    (∀ fault, d.firstFault? f.values = some fault → ∀ strict, f.close strict = ⟨.error fault, []⟩)
      ∧ (d.firstFault? f.values = none → ∃ literal, d.HasLiterals f.values literal)
      ∧ (∀ literal, d.HasLiterals f.values literal →
          (d.missing f.values = [] →
            ∀ strict, f.close strict = ⟨.ok (d.filled f.values literal), []⟩)
          ∧ (d.missing f.values ≠ [] →
            f.close false = ⟨.ok (d.filled f.values literal), [⟨.warning,
              "Unbound filter placeholder(s): " ++ Text.joined ", " (d.missing f.values)⟩]⟩
            ∧ f.close true = ⟨.error (.unbound (d.missing f.values)), []⟩))
      ∧ (Fault.unbound (d.missing f.values)).message
          = "No value bound for placeholder(s): " ++ Text.joined ", " (d.missing f.values)
      ∧ (Fault.unbound (d.missing f.values)).report?
          = some ([("error", .text "UNBOUND_PLACEHOLDER"),
              ("message", .text (Fault.unbound (d.missing f.values)).message),
              ("keys", .list ((d.missing f.values).map .text))] : List (Text × Value))
      ∧ ∀ values : Table Text Value, (∀ key ∈ d.keys, values.get? key = f.values.get? key) →
          ∀ strict, ({ f with values } : OpenFilter).close strict = f.close strict := by
  refine ⟨fun fault hfault => close_of_fault h hfault, Division.exists_hasLiterals,
    fun literal hliteral => ⟨fun hmissing strict => ?_, fun hmissing => ?_⟩, rfl, rfl,
    fun values hvalues => ?_⟩
  · rw [close_of_literals h hliteral, if_pos hmissing]
  · rw [close_of_literals h hliteral, close_of_literals h hliteral, if_neg hmissing,
      if_neg hmissing]
    exact ⟨rfl, rfl⟩
  · refine close_congr (f := { f with values }) rfl fun key hkey => hvalues key ?_
    rwa [h.tokenKeys_eq] at hkey

/-- Tokens with and without a value in turn, one of them twice. -/
def mixedFilter : OpenFilter where
  query := "{:a}{:b}{:a}{:c}{:d}"
  values := [(['b'], .int 1), (['d'], .null)]

/-- The same filter with a value that cannot be written. -/
def failingFilter : OpenFilter where
  query := mixedFilter.query
  values := (['c'], .mapping [(.tuple [], .null)]) :: mixedFilter.values

/-- The tokens of both filters, without any text between them. -/
def mixedDivision : Division :=
  ⟨[], [(['a'], []), (['b'], []), (['a'], []), (['c'], []), (['d'], [])]⟩

/-- A value that cannot be written is told of, although tokens in front of it have no value. If it
is not there, these are told of in their order, each once. -/
theorem close_mixedFilter :
    (∀ strict, failingFilter.close strict = ⟨.error (.jsonKey .tuple), []⟩)
      ∧ mixedFilter.close false
        = ⟨.ok "{:a}1{:a}{:c}null", [⟨.warning, "Unbound filter placeholder(s): a, c"⟩]⟩
      ∧ mixedFilter.close true = ⟨.error (.unbound [['a'], ['c']]), []⟩ := by
  have hdivides : mixedDivision.Divides mixedFilter.query := Division.divides_iff.2 (by cbv)
  refine ⟨(close_cases (f := failingFilter) hdivides).1 _ rfl, ?_⟩
  obtain ⟨-, -, hclose, -⟩ := close_cases hdivides
  have hliteral : mixedDivision.HasLiterals mixedFilter.values
      fun key => if key = ['b'] then ['1'] else "null" := by
    intro key hkey value hget
    simp only [mixedDivision, Division.keys, Table.keys, List.map_cons, List.map_nil,
      List.mem_cons, List.not_mem_nil, or_false] at hkey
    rcases hkey with rfl | rfl | rfl | rfl | rfl <;> cases hget <;> rfl
  have hkeys : mixedDivision.missing mixedFilter.values = [['a'], ['c']] := by cbv
  have hfilled : mixedDivision.filled mixedFilter.values
      (fun key => if key = ['b'] then ['1'] else "null") = "{:a}1{:a}{:c}null" := by cbv
  have hwarning : ("Unbound filter placeholder(s): " : Text) ++ Text.joined ", " [['a'], ['c']]
      = "Unbound filter placeholder(s): a, c" := by cbv
  have hmissing := (hclose _ hliteral).2
  rw [hfilled, hkeys, hwarning] at hmissing
  exact hmissing (List.cons_ne_nil _ _)

end OpenFilter

end RecordQuery
