import RecordQuery.Proofs.Form
import RecordQuery.Proofs.Table
import RecordQuery.Request.Link

/-!
Links are read back.

* `Params.Carries` says which pairs of byte strings a link is to hold, in which order.
* `Params.decode?_link`: the link of any parameters and extra pairs is read back as exactly these
  pairs, uses only the characters of form encoding, and is empty only if there are none. So links
  with different pairs differ.
-/

namespace RecordQuery

namespace Params

/-- The pairs that a link is to hold: the known parameters that are there, in their fixed order, then
the extra pairs that have a value, in theirs. -/
def Carries (params : Params) (extra : List (Value × Value))
    (pairs : List (List UInt8 × List UInt8)) : Prop :=
  ∃ known : List (Text × Value),
    known.map Prod.fst
        = (["filter", "fields", "expand", "sort", "page", "perPage"] : List Text).filter
            (fun key => (Table.keys params).contains key)
      ∧ (∀ e ∈ known, Table.get? params e.1 = some e.2)
      ∧ pairs = known.map (fun e => (Text.utf8 e.1, e.2.formBytes))
          ++ (extra.filter fun e => !e.2.isNull).map fun e => (e.1.formBytes, e.2.formBytes)

variable {params others : Params} {extra more : List (Value × Value)}
  {pairs : List (List UInt8 × List UInt8)}

/-- The known parameters that are there. -/
def known (params : Params) : List (Text × Value) :=
  order.filterMap fun key => (Table.get? params key).map fun value => (key, value)

lemma map_linkPairs (params : Params) (extra : List (Value × Value)) :
    ((params.linkPairs extra).map fun (key, value) => (key.formBytes, value.formBytes))
      = params.known.map (fun e => (Text.utf8 e.1, e.2.formBytes))
        ++ (extra.filter fun e => !e.2.isNull).map fun e => (e.1.formBytes, e.2.formBytes) := by
  rw [linkPairs, List.map_append, known, List.map_filterMap, List.map_filterMap]
  simp only [Option.map_map]
  rfl

/-- There is one list of such pairs, that of the link. -/
lemma carries_iff : params.Carries extra pairs
    ↔ pairs = (params.linkPairs extra).map fun (key, value) => (key.formBytes, value.formBytes) := by
  rw [map_linkPairs]
  constructor
  · rintro ⟨entries, hkeys, hvalues, rfl⟩
    have hentries : entries = params.known := Table.eq_filterMap_get?_iff.2 ⟨hkeys, hvalues⟩
    rw [hentries]
  · intro h
    obtain ⟨hkeys, hvalues⟩ := Table.eq_filterMap_get?_iff.1 (rfl : params.known = _)
    exact ⟨params.known, hkeys, hvalues, h⟩

/-- A link encodes the pairs that it is to hold. -/
lemma link_eq_encode (h : params.Carries extra pairs) : params.link extra = Form.encode pairs := by
  rw [link, carries_iff.1 h]

/-- The link of any parameters and extra pairs holds letters, digits and eight other characters only.
It is read back as the pairs that it is to hold, byte by byte and in their order, it is empty exactly
if there are none, and it is the link of other parameters exactly if they have the same pairs. -/
theorem decode?_link (params : Params) (extra : List (Value × Value)) :
    ∃ pairs, params.Carries extra pairs
      ∧ Form.decode? (params.link extra) = some pairs
      ∧ (params.link extra = [] ↔ pairs = [])
      ∧ (∀ c ∈ params.link extra, c.isAlphanum = true ∨ c ∈ ("_.-~+%&=" : Text))
      ∧ ∀ (others : Params) (more : List (Value × Value)) (otherPairs : _),
          others.Carries more otherPairs → (others.link more = params.link extra ↔ otherPairs = pairs) := by
  have h : params.Carries extra _ := carries_iff.2 rfl
  refine ⟨_, h, ?_, ?_, fun c hc => ?_, fun others more otherPairs hothers => ?_⟩
  · rw [link_eq_encode h, Form.decode?_encode]
  · rw [link_eq_encode h, Form.encode_eq_nil_iff]
  · rw [link_eq_encode h] at hc
    rcases Form.mem_encode hc with (hletter | hmark) | hmark
    · exact Or.inl hletter
    · exact Or.inr (List.mem_append_left ("+%&=" : Text) hmark)
    · exact Or.inr (List.mem_append_right ("_.-~" : Text) hmark)
  · rw [link_eq_encode h, link_eq_encode hothers, Form.encode_injective.eq_iff]

/-- Parameters in another order than that of a link, the filter with a letter of two bytes and with
characters of form encoding. -/
def spikyParams : Params := [("page", .int 2), ("filter", .text "ü&=+% ")]

/-- Two extra pairs, one of them without a value and one with bytes that are no text. -/
def spikyExtra : List (Value × Value) :=
  [(.text "x", .null), (.text [], .bytes [0x26, 0xFF])]

/-- The link of `spikyParams` and `spikyExtra` is read back, and is not that of the page alone. -/
theorem decode?_link_spiky :
    spikyParams.link spikyExtra = ("filter=%C3%BC%26%3D%2B%25+&page=2&=%26%FF" : Text)
      ∧ ∃ pairs, spikyParams.Carries spikyExtra pairs
        ∧ Form.decode? (spikyParams.link spikyExtra) = some pairs
        ∧ (Params.link [("page", .int 2)] [] = spikyParams.link spikyExtra
            ↔ [(Text.utf8 "page", [0x32])] = pairs) := by
  have hpage : Carries [("page", .int 2)] [] [(Text.utf8 "page", [0x32])] :=
    ⟨[("page", .int 2)], by rfl, by simp [Table.get?], by rfl⟩
  obtain ⟨pairs, hpairs, hread, -, -, hothers⟩ := decode?_link spikyParams spikyExtra
  exact ⟨by rfl, pairs, hpairs, hread, hothers _ _ _ hpage⟩

end Params

end RecordQuery
