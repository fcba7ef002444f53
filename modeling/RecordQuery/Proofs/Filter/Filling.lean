import RecordQuery.Proofs.Filter.Fragment
import RecordQuery.Proofs.Filter.Numbering
import RecordQuery.Proofs.Filter.Operator
import RecordQuery.Proofs.Filter.Scan
import RecordQuery.Request.Basic

/-!
Putting values in place of placeholders gives what writing the values at once would give.

* `Fragment.directAll` writes fragments with the literal of each value in place of a placeholder.
* `Fragment.write_cases` is what a fragment can write, and `Fragment.Written` says it of a list of
  fragments, one after the other.
* `Written.placeholders_and_keys` and `Written.fillPieces_pieces` follow by induction: which values
  are put aside, which tokens are found, and what they are filled with. `Written.close_eq` puts them
  together.
-/

namespace RecordQuery

namespace Fragment

/-! ### Writing values at once -/

/-- The text of a fragment with the literal of its value in place of the placeholder. -/
def direct : Fragment → Except Fault Text
  | verbatim t => .ok t
  | emptiness field negated => .ok (emptinessText field negated)
  | comparison c =>
    match c.value.moment? with
    | some moment => .ok (c.field.display ++ c.operator.text ++ moment.text)
    | none => c.value.literal.map (c.field.display ++ c.operator.text ++ ·)
  | refusal fault => .error fault

/-- The texts of fragments one after the other, with literals in place of the placeholders. -/
def directAll : List Fragment → Except Fault Text
  | [] => .ok []
  | f :: fs => do
    let first ← f.direct
    let rest ← directAll fs
    return first ++ rest

/-- The value that a fragment puts aside, with the text of its field. -/
def reserved? : Fragment → Option (Text × Value)
  | comparison c => if c.value.moment?.isSome then none else some (c.field.display, c.value)
  | _ => none

/-- The values that fragments put aside, with the texts of their fields. -/
def reserved (fs : List Fragment) : List (Text × Value) := fs.filterMap reserved?

/-- The fields are texts, and neither they nor what is written verbatim hold certain characters. -/
def Plain (banned : List Char) : Fragment → Prop
  | verbatim t => ∀ c ∈ t, c ∉ banned
  | emptiness field _ => ∃ t : Text, field = .text t ∧ ∀ c ∈ t, c ∉ banned
  | comparison c => ∃ t : Text, c.field = .text t ∧ ∀ x ∈ t, x ∉ banned
  | refusal _ => True

/-! ### What fragments write -/

lemma operator_text_ne {op : Operator} {c : Char} (h : c ∈ op.text) : c ≠ '{' := by
  rintro rfl
  exact absurd (Operator.mem_signs_of_mem_text h) (by decide)

lemma moment_text_ne {m : Moment} {c : Char} (h : c ∈ m.text) : c ≠ '{' := by
  rintro rfl
  exact absurd (Moment.eq_or_isAlpha_of_mem_text h) (by decide)

/-- The braces of a placeholder. -/
def braces : List Char := ['{', '}']

lemma ne_of_not_mem_braces {t : Text} (h : ∀ c ∈ t, c ∉ braces) : ∀ c ∈ t, c ≠ '{' :=
  fun c hc heq => h c hc (by simp [heq, braces])

/-- A fragment without braces that is no fault writes either a text without an opening brace or,
behind such a text, the placeholder of the value that it puts aside. -/
theorem write_cases {f : Fragment} {p : Placeholders} (hplain : f.Plain braces)
    (hok : (f.write p).fault = none) :
    (∃ t, (∀ c ∈ t, c ≠ '{') ∧ f.write p = .wrote t p ∧ f.direct = .ok t ∧ f.reserved? = none)
      ∨ ∃ field value head, (∀ c ∈ field, c ∉ braces) ∧ (∀ c ∈ head, c ≠ '{')
          ∧ f.write p = .wrote
              (head ++ placeholder (field ++ Text.numeral (p.nextOrdinal (.text field))))
              (p.addText field value)
          ∧ f.direct = value.literal.map (head ++ ·) ∧ f.reserved? = some (field, value) := by
  cases f with
  | verbatim t => exact Or.inl ⟨t, ne_of_not_mem_braces hplain, rfl, rfl, rfl⟩
  | emptiness field negated =>
      obtain ⟨t, rfl, ht⟩ := hplain
      have htail : ∀ c ∈ emptinessMark negated, c ≠ '{' := by cases negated <;> simp [emptinessMark]
      exact Or.inl ⟨emptinessText (.text t) negated, fun c hc =>
        (List.mem_append.1 hc).elim (ne_of_not_mem_braces ht c) (htail c), rfl, rfl, rfl⟩
  | comparison c =>
      obtain ⟨field, operator, value⟩ := c
      obtain ⟨t, rfl, ht⟩ := hplain
      have hhead : ∀ c ∈ t ++ operator.text, c ≠ '{' := fun c hc =>
        (List.mem_append.1 hc).elim (ne_of_not_mem_braces ht c) operator_text_ne
      cases hm : value.moment? with
      | some moment =>
          refine Or.inl ⟨t ++ operator.text ++ moment.text, fun c hc => ?_, ?_, ?_, ?_⟩
          · exact (List.mem_append.1 hc).elim (hhead c) moment_text_ne
          · simp only [write, Comparison.write, hm]
            exact Outcome.wroteBehind_text _ _ _ _
          · simp only [direct, hm]
            rfl
          · simp only [reserved?, hm]
            rfl
      | none =>
          refine Or.inr ⟨t, value, t ++ operator.text, ht, hhead, ?_, ?_, ?_⟩
          · simp only [write, Comparison.write, hm, Placeholders.add_text]
            exact Outcome.wroteBehind_text _ _ _ _
          · simp only [direct, hm]
            rfl
          · simp only [reserved?, hm]
            rfl
  | refusal fault => exact absurd hok (by simp [write, Outcome.failed])

lemma directAll_cons (f : Fragment) (fs : List Fragment) :
    directAll (f :: fs) = f.direct.bind fun t => (directAll fs).map (t ++ ·) := by
  rw [directAll]
  cases f.direct with
  | error fault => rfl
  | ok t => cases directAll fs <;> rfl

lemma eq_append_of_directAll_cons {f : Fragment} {fs : List Fragment} {t : Text}
    (h : directAll (f :: fs) = .ok t) :
    ∃ first rest, f.direct = .ok first ∧ directAll fs = .ok rest ∧ t = first ++ rest := by
  rw [directAll_cons] at h
  cases hfirst : f.direct with
  | error fault => exact absurd (hfirst ▸ h) (by simp [Except.bind])
  | ok first =>
      cases hrest : directAll fs with
      | error fault =>
          rw [hfirst, hrest] at h
          exact absurd h (by simp [Except.bind, Except.map])
      | ok rest =>
          rw [hfirst, hrest] at h
          exact ⟨first, rest, rfl, rfl, (Except.ok.inj h).symm⟩

lemma reserved_cons_of_none {f : Fragment} (h : f.reserved? = none) (fs : List Fragment) :
    reserved (f :: fs) = reserved fs := List.filterMap_cons_none h

lemma reserved_cons_of_some {f : Fragment} {entry : Text × Value} (h : f.reserved? = some entry)
    (fs : List Fragment) : reserved (f :: fs) = entry :: reserved fs := List.filterMap_cons_some h

/-- A key can be read back from its placeholder. -/
lemma key_ok {field : Text} (h : ∀ c ∈ field, c ∉ braces) (n : Nat) :
    field ++ Text.numeral n ≠ [] ∧ ∀ c ∈ field ++ Text.numeral n, c ≠ '}' := by
  refine ⟨by simp [Text.numeral_ne_nil], fun c hc heq => ?_⟩
  subst heq
  rcases List.mem_append.1 hc with hc | hc
  · exact h _ hc (by simp [braces])
  · exact absurd (Text.isDigit_of_mem_numeral hc) (by decide)

open Placeholders

variable {fs : List Fragment} {p : Placeholders} {earlier : List Text}

/-- Fragments that write, one after the other, a text without an opening brace or, behind such a
text, the placeholder of a value. The keys go on from the fields that have had values before. -/
inductive Written : List Fragment → Placeholders → List Text → Prop where
  | nil {p : Placeholders} {earlier : List Text} : Written [] p earlier
  | text {f : Fragment} {fs : List Fragment} {p : Placeholders} {earlier : List Text} {t : Text}
      (ht : ∀ c ∈ t, c ≠ '{') (hwrite : f.write p = .wrote t p) (hdirect : f.direct = .ok t)
      (hnone : f.reserved? = none) (rest : Written fs p earlier) : Written (f :: fs) p earlier
  | value {f : Fragment} {fs : List Fragment} {p : Placeholders} {earlier : List Text}
      {field head : Text} {value : Value}
      (hfield : ∀ c ∈ field, c ∉ braces) (hhead : ∀ c ∈ head, c ≠ '{')
      (hwrite : f.write p = .wrote
        (head ++ placeholder (field ++ Text.numeral (earlier.count field + 1)))
        (p.addText field value))
      (hdirect : f.direct = value.literal.map (head ++ ·))
      (hsome : f.reserved? = some (field, value))
      (rest : Written fs (p.addText field value) (earlier ++ [field])) : Written (f :: fs) p earlier

/-- Fragments without braces that meet no fault write texts and placeholders. -/
theorem Written.of_plain (hseen : p.HasSeen earlier) (hplain : ∀ f ∈ fs, f.Plain braces)
    (hok : (writeAll fs p).fault = none) : Written fs p earlier := by
  induction fs generalizing p earlier with
  | nil => exact .nil
  | cons f fs ih =>
      rw [writeAll_cons] at hok
      obtain ⟨hfirst, hrest⟩ := Outcome.fault_andThen_eq_none_iff.1 hok
      have hplain' : ∀ g ∈ fs, g.Plain braces := fun g hg => hplain g (List.mem_cons_of_mem _ hg)
      rcases write_cases (hplain f List.mem_cons_self) hfirst with
        ⟨t, ht, hwrite, hdirect, hnone⟩
          | ⟨field, value, head, hfield, hhead, hwrite, hdirect, hsome⟩
      · rw [hwrite] at hrest
        exact .text ht hwrite hdirect hnone (ih hseen hplain' hrest)
      · have hnext := ih (hseen.addText field value) hplain' (by rwa [hwrite] at hrest)
        rw [hseen field] at hwrite
        exact .value hfield hhead hwrite hdirect hsome hnext

namespace Written

/-- The values are put aside one after the other, and the tokens that a scan finds are those of
their keys. -/
theorem placeholders_and_keys (h : Written fs p earlier) :
    (writeAll fs p).placeholders = p.addAll (ofTextFields (reserved fs))
      ∧ Filter.tokenKeys (writeAll fs p).text
          = keysAfter earlier ((reserved fs).map Prod.fst) := by
  induction h with
  | nil => exact ⟨rfl, by simp [Outcome.wrote, Filter.tokenKeys, reserved]⟩
  | text ht hwrite _ hnone _ ih =>
      rw [writeAll_cons, hwrite, reserved_cons_of_none hnone]
      exact ⟨ih.1, (Filter.tokenKeys_append_of_ne ht _).trans ih.2⟩
  | value hfield hhead hwrite _ hsome _ ih =>
      obtain ⟨hne, hbrace⟩ := key_ok hfield _
      rw [writeAll_cons, hwrite, reserved_cons_of_some hsome]
      refine ⟨ih.1, ?_⟩
      rw [List.map_cons, keysAfter_cons, ← ih.2, Outcome.wrote_andThen]
      simp only [List.append_assoc]
      rw [Filter.tokenKeys_append_of_ne hhead, Filter.tokenKeys_placeholder_append hne hbrace]

/-- Filling in what has been written gives what is written at once, in any table that has the values
under their keys. -/
theorem fillPieces_pieces {values : Table Text Value} (h : Written fs p earlier)
    (hvalues : ∀ entry ∈ entriesAfter earlier (reserved fs),
      values.get? entry.1 = some entry.2) :
    Filter.fillPieces values (Filter.pieces (writeAll fs p).text) = directAll fs := by
  induction h with
  | nil => simp [Outcome.wrote, Filter.fillPieces, directAll]
  | text ht hwrite hdirect hnone _ ih =>
      rw [reserved_cons_of_none hnone] at hvalues
      rw [directAll_cons, hdirect, writeAll_cons, hwrite, Outcome.wrote_andThen,
        Filter.pieces_append_of_ne ht, Filter.fillPieces_chars_append, ih hvalues]
      rfl
  | @value f fs p earlier field head value hfield hhead hwrite hdirect hsome _ ih =>
      rw [reserved_cons_of_some hsome, entriesAfter_cons] at hvalues
      obtain ⟨hne, hbrace⟩ := key_ok hfield (earlier.count field + 1)
      have hget := hvalues _ List.mem_cons_self
      have hfill := ih fun entry hentry => hvalues entry (List.mem_cons_of_mem _ hentry)
      rw [directAll_cons, hdirect, writeAll_cons, hwrite, Outcome.wrote_andThen]
      simp only [List.append_assoc]
      rw [Filter.pieces_append_of_ne hhead, Filter.fillPieces_chars_append,
        Filter.pieces_placeholder_append hne hbrace, Filter.fillPieces_token_cons hget]
      simp only at hfill ⊢
      rw [hfill]
      cases value.literal with
      | error fault => rfl
      | ok t => cases directAll fs <;> simp [Except.map, Except.bind]

/-- Fragments can be written at once if every value they put aside can be written. -/
lemma directAll_ok (h : Written fs p earlier)
    (hvalues : ∀ entry ∈ reserved fs, ∃ t, entry.2.literal = .ok t) :
    ∃ t, directAll fs = .ok t := by
  induction h with
  | nil => exact ⟨[], rfl⟩
  | @text f fs p earlier t _ _ hdirect hnone _ ih =>
      rw [reserved_cons_of_none hnone] at hvalues
      obtain ⟨u, hu⟩ := ih hvalues
      exact ⟨t ++ u, by rw [directAll_cons, hdirect, hu]; rfl⟩
  | @value f fs p earlier field head value _ _ _ hdirect hsome _ ih =>
      rw [reserved_cons_of_some hsome] at hvalues
      obtain ⟨t, ht⟩ := hvalues _ List.mem_cons_self
      obtain ⟨u, hu⟩ := ih fun entry hentry => hvalues entry (List.mem_cons_of_mem _ hentry)
      exact ⟨head ++ t ++ u, by rw [directAll_cons, hdirect, ht, hu]; rfl⟩

/-- What has been written closes to what is written at once, if the values are found under their
keys and can be written. -/
theorem close_eq {values : Table Text Value} (h : Written fs p earlier)
    (hvalues : ∀ entry ∈ entriesAfter earlier (reserved fs), values.get? entry.1 = some entry.2)
    (hliterals : ∀ entry ∈ reserved fs, ∃ t, entry.2.literal = .ok t) :
    ∃ t, directAll fs = .ok t ∧ ∀ strict,
      ({ query := (writeAll fs p).text, values } : OpenFilter).close strict = ⟨.ok t, []⟩ := by
  obtain ⟨t, ht⟩ := h.directAll_ok hliterals
  refine ⟨t, ht, fun strict => OpenFilter.close_eq_of_fill ?_ (fun key hkey => ?_) strict⟩
  · rw [OpenFilter.fill, ← ht]
    exact h.fillPieces_pieces hvalues
  · rw [h.placeholders_and_keys.2, ← keys_entriesAfter] at hkey
    obtain ⟨entry, hentry, rfl⟩ := List.mem_map.1 hkey
    rw [hvalues entry hentry]
    rfl

end Written

end Fragment

end RecordQuery
