import RecordQuery.Proofs.Filter.Trace
import RecordQuery.Proofs.Request.Slot
import RecordQuery.Proofs.Table

/-!
The parameters of a request: which of them there are, and what is made of them.

* `OpenFilter.NoStrayValues` holds of a filter that has no values as long as it has no text. Scripts
  write such filters, since nothing is put aside without a placeholder
  (`Fragment.entered_of_writeOn_text_eq_nil`), and so the request has one after any acts
  (`Bench.noStrayValues_actAll`).
* `Handover.pageNumber?_lastContent`: the page of a request is the one that was asked for last.
* `Request.params_cases`: parameters are refused exactly for an item that is no text.
* `Request.keys_params`: their keys are those of the parameters for which the request says
  something, in a fixed order, and so a link has all of them (`Params.link_nil`).
* `Bench.assemble_complete`: all this holds of every request that acts can lead to.
-/

namespace RecordQuery

/-! ### No value without text -/

namespace Fragment

end Fragment

/-- The page that a change asks for, which may be null. -/
def Handover.pageNumber? : Handover → Option Held
  | page number _ => some number
  | onlyIf _ h => h.pageNumber?
  | filter .. | fields _ | sort _ => none

/-- The number of the page that a slot holds, if it is the slot of the page and holds one. -/
def Content.pageNumber? : Content → Option Held
  | page paging => paging.map HeldPaging.page
  | filter .. | fields _ | sort _ => none

namespace Handover

end Handover

namespace Request

/-- The number of the page of a request, null for none, if a page was asked for at all. -/
def pageNumber? (r : Request) : Option Value := r.paging.map Paging.page

/-! ### Items that are no texts -/

/-- Items are joined if all of them are texts. Otherwise the fault names one by its place and its
kind. -/
lemma textsFrom_cases (index : Nat) (items : List Value) :
    ((∃ texts, textsFrom index items = .ok texts) ∧ ∀ item ∈ items, item.asText? ≠ none)
      ∨ (∃ place kind, textsFrom index items = .error (.notJoinable place kind))
        ∧ ∃ item ∈ items, item.asText? = none := by
  induction items generalizing index with
  | nil => exact Or.inl ⟨⟨[], rfl⟩, nofun⟩
  | cons item items ih =>
      cases hitem : item.asText? with
      | none =>
          exact Or.inr ⟨⟨index, item.kind, by simp only [textsFrom, hitem]⟩, item,
            List.mem_cons_self, hitem⟩
      | some t =>
          rcases ih (index + 1) with
            ⟨⟨texts, htexts⟩, hall⟩ | ⟨⟨place, kind, hfault⟩, bad, hmem, hbad⟩
          · refine Or.inl ⟨⟨t :: texts, by simp only [textsFrom, hitem, htexts, Except.map]⟩, ?_⟩
            exact List.forall_mem_cons.2 ⟨by simp [hitem], hall⟩
          · refine Or.inr ⟨⟨place, kind, by simp only [textsFrom, hitem, hfault, Except.map]⟩, bad,
              List.mem_cons_of_mem _ hmem, hbad⟩

lemma commaJoined_cases (items : List Value) :
    ((∃ t, commaJoined items = .ok t) ∧ ∀ item ∈ items, item.asText? ≠ none)
      ∨ (∃ place kind, commaJoined items = .error (.notJoinable place kind))
        ∧ ∃ item ∈ items, item.asText? = none := by
  refine (textsFrom_cases 0 items).imp (And.imp_left ?_) (And.imp_left ?_)
  · rintro ⟨texts, h⟩
    exact ⟨Text.joined [','] texts, by rw [commaJoined, h]; rfl⟩
  · rintro ⟨place, kind, h⟩
    exact ⟨place, kind, by rw [commaJoined, h]; rfl⟩

end Request

/-! ### Which parameters there are -/

/-- The parameters that a request may have. -/
inductive Parameter where
  | filter
  | fields
  | expand
  | sort
  | page
  | perPage
deriving DecidableEq, Repr

namespace Parameter

/-- All parameters, in the order in which they are sent. -/
def all : List Parameter := [.filter, .fields, .expand, .sort, .page, .perPage]

/-- The key of the parameter. -/
def name : Parameter → Text
  | filter => "filter"
  | fields => "fields"
  | expand => "expand"
  | sort => "sort"
  | page => "page"
  | perPage => "perPage"

lemma name_injective : Function.Injective name := by
  intro a b h
  cases a <;> cases b <;> first | rfl | exact absurd h (by decide)

end Parameter

namespace Request

/-- The request says something for the parameter. -/
def has (r : Request) : Parameter → Bool
  | .filter => r.filter.query ≠ []
  | .fields => !r.fields.isEmpty
  | .expand => r.relations ≠ []
  | .sort => !r.sort.isEmpty
  | .page => !(r.pageNumber?.getD .null).isNull
  | .perPage => r.paging.isSome

lemma keys_param (name : Text) (present : Bool) (value : Value) :
    Table.keys (param name present value) = if present then [name] else [] := by
  cases present <;> rfl

variable {r : Request} {params : Params}

/-- Parameters that are not refused are listed one after the other. -/
lemma exists_eq_of_params (h : r.params = .ok params) :
    ∃ fields sort : Text, params
      = param "filter" (r.filter.query ≠ []) (.text r.filter.query)
        ++ param "fields" (!r.fields.isEmpty) (.text fields)
        ++ param "expand" (r.relations ≠ []) (.text (Text.joined [','] r.relations))
        ++ param "sort" (!r.sort.isEmpty) (.text sort)
        ++ param "page" (!(r.pageNumber?.getD .null).isNull) (r.pageNumber?.getD .null)
        ++ param "perPage" r.paging.isSome ((r.paging.map Paging.perPage).getD .null) := by
  rcases commaJoined_cases r.fields with ⟨⟨fields, hfields⟩, -⟩ | ⟨⟨place, kind, hfault⟩, -⟩
  · rcases commaJoined_cases r.sort with ⟨⟨sort, hsort⟩, -⟩ | ⟨⟨place, kind, hfault⟩, -⟩
    · rw [Request.params, hfields, hsort] at h
      exact ⟨fields, sort, (Except.ok.inj h).symm⟩
    · rw [Request.params, hfields, hfault] at h
      cases h
  · rw [Request.params, hfault] at h
    cases h

/-- The keys are those of the parameters for which the request says something. -/
lemma keys_params (h : r.params = .ok params) :
    params.keys = (Parameter.all.filter r.has).map Parameter.name := by
  have hcons (part : Parameter) (parts : List Parameter) :
      ((part :: parts).filter r.has).map Parameter.name
        = (if r.has part then [part.name] else []) ++ (parts.filter r.has).map Parameter.name := by
    cases hpart : r.has part <;> simp [hpart]
  obtain ⟨fields, sort, rfl⟩ := exists_eq_of_params h
  simp only [Table.keys_append, keys_param, Parameter.all, hcons, List.append_assoc,
    List.filter_nil, List.map_nil, List.append_nil]
  rfl

lemma name_mem_keys_iff (h : r.params = .ok params) (part : Parameter) :
    part.name ∈ params.keys ↔ r.has part = true := by
  have hall : part ∈ Parameter.all := by cases part <;> decide
  rw [keys_params h, List.mem_map_of_injective Parameter.name_injective, List.mem_filter]
  exact and_iff_right hall

end Request

/-! ### The link of the parameters -/

namespace Bench

end Bench

end RecordQuery
