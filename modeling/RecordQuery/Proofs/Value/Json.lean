import RecordQuery.Proofs.Number.Layout
import RecordQuery.Proofs.Text.Joined
import RecordQuery.Proofs.Value.Literal

/-!
The JSON text of values.

* `escaped_of_json`: the JSON text of any value is escaped, whatever it holds.
* `IsNative` are the values for which JSON has a form of its own. They have a text
  (`IsNative.exists_json`), its first character tells their kind (`IsNative.exists_cons`), and it
  tells where it ends and what it was written for (`json_append_inj`, in the strengthened form that
  it also determines the rest).
* `literal_closed_and_faithful`: the same for the literals that are quoted JSON.
-/

namespace RecordQuery

open Text

namespace Value

/-! ### Escapes -/

lemma unescaped_jsonBool (b : Bool) : Unescaped (jsonBool b) := by
  have htrue : Unescaped "true" := unescaped_of_all (by decide)
  have hfalse : Unescaped "false" := unescaped_of_all (by decide)
  rw [jsonBool]
  split
  · exact htrue
  · exact hfalse

/-- Escaped parts with commas between and brackets around them are escaped. -/
lemma escaped_bracketed {left right : Char} (hbrackets : Unescaped [left, right])
    {parts : List Text} (h : ∀ part ∈ parts, Escaped part) :
    Escaped (left :: joined "," parts ++ [right]) := by
  have hcomma : Escaped "," := .char (by decide) (by decide) .nil
  obtain ⟨⟨hleft, hspace⟩, hright⟩ := List.forall_mem_cons.1 hbrackets
  exact .char hleft hspace ((Escaped.joined hcomma h).append (Unescaped.escaped hright))

/-- An integer with few enough digits is its numeral. -/
lemma json_int_eq_ok_iff {n : Int} {t : Text} :
    (int n).json = .ok t ↔ exceedsLimit n = false ∧ t = signedNumeral n := by
  rw [json, displayed_eq_ok_iff]
  rfl

mutual

/-- A backslash in the JSON text of a value takes a character with it that is no quote, and no
control character is left. -/
theorem escaped_of_json : (v : Value) → {t : Text} → v.json = .ok t → Escaped t
  | list items, _, h | tuple items, _, h => by
    obtain ⟨parts, hparts, h⟩ := ok_of_bind h
    obtain rfl := Except.ok.inj h
    exact escaped_bracketed (unescaped_of_all (by decide)) (escaped_of_jsonItems items hparts)
  | mapping entries, _, h => by
    obtain ⟨parts, hparts, h⟩ := ok_of_bind h
    obtain rfl := Except.ok.inj h
    exact escaped_bracketed (unescaped_of_all (by decide)) (escaped_of_jsonEntries entries hparts)
  | null, _, h => by
    obtain rfl := Except.ok.inj h
    exact (unescaped_of_all (by decide)).escaped
  | bool b, _, h => by
    obtain rfl := Except.ok.inj h
    exact (unescaped_jsonBool b).escaped
  | int n, _, h => by
    obtain ⟨-, rfl⟩ := json_int_eq_ok_iff.1 h
    exact (unescaped_signedNumeral n).escaped
  | float x, _, h => by
    obtain rfl := Except.ok.inj h
    exact x.unescaped_json.escaped
  | text _, _, h | operator _, _, h | decimal _, _, h | uuid _, _, h | datetime _, _, h
  | date _, _, h | time _, _, h | bytes _, _, h => by
    obtain rfl := Except.ok.inj h
    exact escaped_jsonString _

theorem escaped_of_jsonItems : (items : List Value) → {ts : List Text} →
    jsonItems items = .ok ts → ∀ t ∈ ts, Escaped t
  | [], _, h => by
    obtain rfl := Except.ok.inj h
    exact List.forall_mem_nil _
  | item :: items, _, h => by
    obtain ⟨first, hfirst, h⟩ := ok_of_bind h
    obtain ⟨rest, hrest, h⟩ := ok_of_bind h
    obtain rfl := Except.ok.inj h
    exact List.forall_mem_cons.2 ⟨escaped_of_json item hfirst, escaped_of_jsonItems items hrest⟩

theorem escaped_of_jsonEntries : (entries : List (Value × Value)) → {ts : List Text} →
    jsonEntries entries = .ok ts → ∀ t ∈ ts, Escaped t
  | [], _, h => by
    obtain rfl := Except.ok.inj h
    exact List.forall_mem_nil _
  | entry :: entries, _, h => by
    obtain ⟨first, hfirst, h⟩ := ok_of_bind h
    obtain ⟨rest, hrest, h⟩ := ok_of_bind h
    obtain rfl := Except.ok.inj h
    exact List.forall_mem_cons.2
      ⟨escaped_of_jsonEntry entry hfirst, escaped_of_jsonEntries entries hrest⟩

theorem escaped_of_jsonEntry : (entry : Value × Value) → {t : Text} →
    jsonEntry entry = .ok t → Escaped t
  | (key, value), _, h => by
    obtain ⟨name, -, h⟩ := ok_of_bind h
    obtain ⟨content, hcontent, h⟩ := ok_of_bind h
    obtain rfl := Except.ok.inj h
    exact (escaped_jsonString name).append
      (.char (by decide) (by decide) (escaped_of_json value hcontent))

end

/-! ### Elements and members -/

/-- The texts that the members of a list have belong to them one by one. -/
lemma forall₂_of_mapM {α : Type} {f : α → Except Fault Text} {as : List α} {ts : List Text}
    (h : as.mapM f = .ok ts) : List.Forall₂ (fun a t => f a = .ok t) as ts := by
  induction as generalizing ts with
  | nil =>
      obtain rfl := Except.ok.inj h
      exact .nil
  | cons a as ih =>
      rw [List.mapM_cons] at h
      obtain ⟨first, hfirst, h⟩ := ok_of_bind h
      obtain ⟨rest, hrest, h⟩ := ok_of_bind h
      obtain rfl := Except.ok.inj h
      exact .cons hfirst (ih hrest)

lemma jsonItems_eq_mapM (items : List Value) : jsonItems items = items.mapM json := by
  induction items with
  | nil => rfl
  | cons item items ih => rw [jsonItems, List.mapM_cons, ih]

lemma jsonEntries_eq_mapM (entries : List (Value × Value)) :
    jsonEntries entries = entries.mapM jsonEntry := by
  induction entries with
  | nil => rfl
  | cons entry entries ih => rw [jsonEntries, List.mapM_cons, ih]

/-! ### Native values -/

/-- The values for which JSON has a form of its own. The keys of a mapping are texts. -/
inductive IsNative : Value → Prop where
  | null : IsNative null
  | bool (b : Bool) : IsNative (bool b)
  | int (n : Int) : IsNative (int n)
  | text (t : Text) : IsNative (text t)
  | list {items : List Value} (h : ∀ item ∈ items, IsNative item) : IsNative (list items)
  | mapping {entries : List (Value × Value)} (hkeys : ∀ e ∈ entries, ∃ name, e.1 = .text name)
      (hvalues : ∀ e ∈ entries, IsNative e.2) : IsNative (mapping entries)

/-- Only an integer can stop a native value from being written. -/
lemma IsNative.exists_integer {v : Value} (h : v.IsNative) {hurdle : Hurdle}
    (hmet : hurdle ∈ v.hurdles) (hstops : hurdle.stops = true) : ∃ n, hurdle = .integer n := by
  induction h with
  | null | bool b | text t => exact absurd hmet List.not_mem_nil
  | int n => exact ⟨n, List.mem_singleton.1 hmet⟩
  | @list items _ ih =>
      rw [hurdles, hurdlesInItems_eq_flatMap] at hmet
      obtain ⟨item, hitem, hmet⟩ := List.mem_flatMap.1 hmet
      exact ih item hitem hmet
  | @mapping entries hkeys _ ih =>
      rw [hurdles, hurdlesInEntries_eq_flatMap] at hmet
      obtain ⟨⟨key, value⟩, hentry, hmet⟩ := List.mem_flatMap.1 hmet
      obtain ⟨name, rfl⟩ := hkeys _ hentry
      rcases List.mem_cons.1 hmet with rfl | hmet
      · exact absurd hstops Bool.false_ne_true
      · exact ih _ hentry hmet

/-- A native value can be written exactly if none of its integers has too many digits. -/
theorem IsNative.hurdleFault?_eq_none_iff {v : Value} (h : v.IsNative) :
    hurdleFault? v.hurdles = none ↔ v.IntegersFit := by
  rw [hurdleFault?, Option.map_eq_none_iff, List.find?_eq_none]
  constructor
  · exact fun hmet n hn => Bool.not_eq_true _ ▸ hmet _ hn
  · intro hfit hurdle hmet hstops
    obtain ⟨n, rfl⟩ := h.exists_integer hmet hstops
    exact absurd hstops (Bool.eq_false_iff.1 (hfit n hmet))

/-- The kind of native values that begin with a character. -/
def markedKind? (c : Char) : Option Kind :=
  if c.isDigit then some .int
  else
    match c with
    | '-' => some .int
    | 'n' => some .null
    | 't' | 'f' => some .bool
    | '"' => some .text
    | '[' => some .list
    | '{' => some .mapping
    | _ => none

/-- The first character of a native value tells its kind. -/
lemma IsNative.exists_cons {v : Value} (h : v.IsNative) {t : Text} (ht : v.json = .ok t) :
    ∃ c rest, t = c :: rest ∧ markedKind? c = some v.kind := by
  cases h with
  | null | text t =>
      obtain rfl := Except.ok.inj ht
      exact ⟨_, _, rfl, rfl⟩
  | bool b =>
      obtain rfl := Except.ok.inj ht
      cases b <;> exact ⟨_, _, rfl, rfl⟩
  | int n =>
      obtain ⟨-, rfl⟩ := json_int_eq_ok_iff.1 ht
      rw [signedNumeral]
      split
      · exact ⟨_, _, rfl, rfl⟩
      · obtain ⟨c, rest, hc, hdigit⟩ := exists_numeral_eq_cons n.natAbs
        exact ⟨c, rest, hc, if_pos hdigit⟩
  | list h =>
      obtain ⟨_, -, ht⟩ := ok_of_bind ht
      obtain rfl := Except.ok.inj ht
      exact ⟨_, _, rfl, rfl⟩
  | mapping hkeys hvalues =>
      obtain ⟨_, -, ht⟩ := ok_of_bind ht
      obtain rfl := Except.ok.inj ht
      exact ⟨_, _, rfl, rfl⟩

/-! ### Where a text ends -/

/-- A text is the JSON text of a native value. -/
def Writes (v : Value) (t : Text) : Prop := v.IsNative ∧ v.json = .ok t

/-- A text is the JSON text of an entry with a text as its key and a native value. -/
def WritesEntry (e : Value × Value) (t : Text) : Prop :=
  (∃ name, e.1 = .text name) ∧ e.2.IsNative ∧ jsonEntry e = .ok t

lemma Writes.exists_cons {v : Value} {t : Text} (h : Writes v t) :
    ∃ c rest, t = c :: rest ∧ c ≠ ']' := by
  obtain ⟨c, rest, ht, hc⟩ := h.1.exists_cons h.2
  refine ⟨c, rest, ht, ?_⟩
  rintro rfl
  cases hc

lemma WritesEntry.exists_eq {e : Value × Value} {t : Text} (h : WritesEntry e t) :
    ∃ name content, e.1 = .text name ∧ Writes e.2 content
      ∧ t = jsonString name ++ ':' :: content := by
  obtain ⟨key, value⟩ := e
  obtain ⟨⟨name, rfl⟩, hnative, ht⟩ := h
  obtain ⟨key, hkey, ht⟩ := ok_of_bind ht
  obtain ⟨content, hcontent, ht⟩ := ok_of_bind ht
  obtain rfl := Except.ok.inj hkey
  exact ⟨name, content, rfl, ⟨hnative, hcontent⟩, (Except.ok.inj ht).symm⟩

lemma WritesEntry.exists_cons {e : Value × Value} {t : Text} (h : WritesEntry e t) :
    ∃ c rest, t = c :: rest ∧ c ≠ '}' := by
  obtain ⟨name, content, -, -, rfl⟩ := h.exists_eq
  exact ⟨'"', _, rfl, by decide⟩

/-- An entry tells where it ends if its value does. -/
lemma delimits_entry {e : Value × Value} (h : Delimits Writes e.2) : Delimits WritesEntry e := by
  intro f t u r s he hf hr hs heq
  obtain ⟨name, content, hname, hcontent, rfl⟩ := he.exists_eq
  obtain ⟨name', content', hname', hcontent', rfl⟩ := hf.exists_eq
  rw [List.append_assoc, List.append_assoc] at heq
  obtain ⟨rfl, hrest⟩ := jsonString_append_inj heq
  obtain ⟨hvalue, hrs⟩ :=
    h f.2 content content' r s hcontent hcontent' hr hs (List.cons.inj hrest).2
  exact ⟨Prod.ext (hname.trans hname'.symm) hvalue, hrs⟩

lemma exists_forall₂_of_list {items : List Value} {t : Text} (h : Writes (list items) t) :
    ∃ ts, List.Forall₂ Writes items ts ∧ t = '[' :: joined "," ts ++ [']'] := by
  obtain ⟨hnative, ht⟩ := h
  obtain ⟨ts, hts, ht⟩ := ok_of_bind ht
  rw [jsonItems_eq_mapM] at hts
  cases hnative with
  | list hitems =>
      exact ⟨ts, (List.forall₂_and_left _ _).2 ⟨hitems, forall₂_of_mapM hts⟩,
        (Except.ok.inj ht).symm⟩

lemma exists_forall₂_of_mapping {entries : List (Value × Value)} {t : Text}
    (h : Writes (mapping entries) t) :
    ∃ ts, List.Forall₂ WritesEntry entries ts ∧ t = '{' :: joined "," ts ++ ['}'] := by
  obtain ⟨hnative, ht⟩ := h
  obtain ⟨ts, hts, ht⟩ := ok_of_bind ht
  rw [jsonEntries_eq_mapM] at hts
  cases hnative with
  | mapping hkeys hvalues =>
      have hrest := (List.forall₂_and_left _ _).2 ⟨hvalues, forall₂_of_mapM hts⟩
      exact ⟨ts, (List.forall₂_and_left _ _).2 ⟨hkeys, hrest⟩, (Except.ok.inj ht).symm⟩

lemma Writes.kind_eq {v w : Value} {t u r s : Text} (hv : Writes v t) (hw : Writes w u)
    (h : t ++ r = u ++ s) : v.kind = w.kind := by
  obtain ⟨c, _, rfl, hc⟩ := hv.1.exists_cons hv.2
  obtain ⟨d, _, rfl, hd⟩ := hw.1.exists_cons hw.2
  rw [(List.cons.inj h).1, hd] at hc
  exact (Option.some.inj hc).symm

/-- In front of anything but a digit, the JSON text of a native value tells where it ends and which
value it was written for. -/
theorem json_append_inj {v : Value} (h : v.IsNative) : Delimits Writes v := by
  -- the first character settles the kind of the other value, so each case has one partner only
  induction h with
  | null =>
      intro w t u r s hv hw hr hs heq
      have hkind := hv.kind_eq hw heq
      obtain ⟨hnative, hu⟩ := hw
      cases hnative with
      | null =>
          obtain rfl := Except.ok.inj (hv.2.symm.trans hu)
          exact ⟨rfl, List.append_cancel_left heq⟩
      | _ => cases hkind
  | bool b =>
      intro w t u r s hv hw hr hs heq
      have hkind := hv.kind_eq hw heq
      obtain ⟨hnative, hu⟩ := hw
      cases hnative with
      | bool c =>
          obtain rfl := Except.ok.inj hv.2
          obtain rfl := Except.ok.inj hu
          cases b <;> cases c
          · exact ⟨rfl, List.append_cancel_left heq⟩
          · exact absurd (List.cons.inj heq).1 (by decide)
          · exact absurd (List.cons.inj heq).1 (by decide)
          · exact ⟨rfl, List.append_cancel_left heq⟩
      | _ => cases hkind
  | int n =>
      intro w t u r s hv hw hr hs heq
      have hkind := hv.kind_eq hw heq
      obtain ⟨hnative, hu⟩ := hw
      cases hnative with
      | int m =>
          obtain ⟨-, rfl⟩ := json_int_eq_ok_iff.1 hv.2
          obtain ⟨-, rfl⟩ := json_int_eq_ok_iff.1 hu
          obtain ⟨hnm, hrs⟩ := signedNumeral_append_inj hr hs heq
          exact ⟨congrArg Value.int hnm, hrs⟩
      | _ => cases hkind
  | text x =>
      intro w t u r s hv hw hr hs heq
      have hkind := hv.kind_eq hw heq
      obtain ⟨hnative, hu⟩ := hw
      cases hnative with
      | text y =>
          obtain rfl := Except.ok.inj hv.2
          obtain rfl := Except.ok.inj hu
          obtain ⟨hxy, hrs⟩ := jsonString_append_inj heq
          exact ⟨congrArg Value.text hxy, hrs⟩
      | _ => cases hkind
  | @list items _ ih =>
      intro w t u r s hv hw hr hs heq
      have hkind := hv.kind_eq hw heq
      cases hw.1 with
      | @list others _ =>
          obtain ⟨ts, hts, rfl⟩ := exists_forall₂_of_list hv
          obtain ⟨us, hus, rfl⟩ := exists_forall₂_of_list hw
          have hinner : joined "," ts ++ ']' :: r = joined "," us ++ ']' :: s := by simpa using heq
          obtain ⟨hitems, hrs⟩ := joined_append_inj (by decide) (by decide)
            (fun _ _ h => h.exists_cons) ih hts hus hinner
          exact ⟨congrArg Value.list hitems, hrs⟩
      | _ => cases hkind
  | @mapping entries _ _ ih =>
      intro w t u r s hv hw hr hs heq
      have hkind := hv.kind_eq hw heq
      cases hw.1 with
      | @mapping others _ _ =>
          obtain ⟨ts, hts, rfl⟩ := exists_forall₂_of_mapping hv
          obtain ⟨us, hus, rfl⟩ := exists_forall₂_of_mapping hw
          have hinner : joined "," ts ++ '}' :: r = joined "," us ++ '}' :: s := by simpa using heq
          obtain ⟨hentries, hrs⟩ := joined_append_inj (by decide) (by decide)
            (fun _ _ h => h.exists_cons) (fun e he => delimits_entry (ih e he)) hts hus hinner
          exact ⟨congrArg Value.mapping hentries, hrs⟩
      | _ => cases hkind

/-- Native values with the same JSON text are the same. -/
theorem IsNative.eq_of_json {v w : Value} (hv : v.IsNative) (hw : w.IsNative) {t : Text}
    (ht : v.json = .ok t) (hu : w.json = .ok t) : v = w :=
  (json_append_inj hv w t t [] [] ⟨hv, ht⟩ ⟨hw, hu⟩ noDigit_nil noDigit_nil rfl).1

/-! ### Literals -/

/-- The value has no literal form of its own but is quoted JSON. -/
def QuotesJson (v : Value) : Prop := v.kind ∈ [Kind.list, .tuple, .mapping, .time, .bytes]

instance (v : Value) : Decidable v.QuotesJson :=
  inferInstanceAs (Decidable (v.kind ∈ [Kind.list, .tuple, .mapping, .time, .bytes]))

lemma QuotesJson.literal_eq {v : Value} (h : v.QuotesJson) :
    v.literal = v.json.map Text.literal := by
  cases v with
  | list _ | tuple _ | mapping _ | time _ | bytes _ => rfl
  | _ => exact absurd h (by simp [QuotesJson, kind])

/-- Literals that are quoted JSON end at the first quote that no backslash takes with it, whatever
is behind them, and hold no control characters. Among native values each stands for one only, and a
native value has one unless an integer in it has too many digits. -/
theorem literal_closed_and_faithful :
    (∀ (v : Value) (t : Text), v.QuotesJson → v.literal = .ok t →
      ∃ content, t = '\'' :: content ++ ['\''] ∧ (∀ c ∈ t, 0x20 ≤ c.toNat)
        ∧ ∀ rest, behindQuote? (content ++ '\'' :: rest) = some rest)
    ∧ ∀ v w : Value, v.IsNative → w.IsNative → v.kind ∈ [Kind.list, .mapping] →
        w.kind ∈ [Kind.list, .mapping] →
        ((∃ t, v.literal = .ok t) ↔ v.IntegersFit)
          ∧ ∀ t, v.literal = .ok t → w.literal = .ok t → v = w := by
  refine ⟨?_, ?_⟩
  · intro v t hv ht
    rw [hv.literal_eq] at ht
    obtain ⟨content, hjson, rfl⟩ := exists_of_map_eq_ok ht
    have hescaped := escaped_of_json v hjson
    refine ⟨escapeQuotes content, rfl, ?_, hescaped.behindQuote?_escapeQuotes⟩
    have hquote : 0x20 ≤ '\''.toNat := by decide
    exact List.forall_mem_cons.2 ⟨hquote, List.forall_mem_append.2
      ⟨hescaped.space_le_of_mem_escapeQuotes, List.forall_mem_singleton.2 hquote⟩⟩
  · intro v w hv hw hvkind hwkind
    have hsub : [Kind.list, .mapping] ⊆ [Kind.list, .tuple, .mapping, .time, .bytes] := by decide
    rw [QuotesJson.literal_eq (hsub hvkind), QuotesJson.literal_eq (hsub hwkind),
      ← faultOf?_eq_none_iff, faultOf?_map_literal, hv.hurdleFault?_eq_none_iff]
    refine ⟨Iff.rfl, fun t ht hu => ?_⟩
    obtain ⟨content, hcontent, rfl⟩ := exists_of_map_eq_ok ht
    obtain ⟨other, hother, heq⟩ := exists_of_map_eq_ok hu
    obtain rfl := literal_injective heq
    exact hv.eq_of_json hw hcontent hother

/-- Backslashes and both quotes in a text and in bytes, and a control character. -/
def spiky : Value :=
  .list [.text ['\\', '\''], .tuple [.text ['\x07', '"'], .bytes [0x27, 0x5C]]]

/-- The literal of `spiky` ends with its last quote, and a text that looks like the border between
two elements is not taken for it. -/
theorem literal_spiky :
    (∃ t, t = ("'[\"\\\\\\'\",[\"\\u0007\\\"\",\"b\\\"\\'\\\\\\\\\\\"\"]]'" : Text)
        ∧ spiky.literal = .ok t
        ∧ ∃ content, t = '\'' :: content ++ ['\''] ∧ (∀ c ∈ t, 0x20 ≤ c.toNat)
          ∧ ∀ rest, behindQuote? (content ++ '\'' :: rest) = some rest)
      ∧ (list [.text "a\",\"b"]).literal ≠ (list [.text "a", .text "b"]).literal := by
  have hspiky : spiky.literal
      = .ok ("'[\"\\\\\\'\",[\"\\u0007\\\"\",\"b\\\"\\'\\\\\\\\\\\"\"]]'" : Text) := by rfl
  refine ⟨⟨_, rfl, hspiky, literal_closed_and_faithful.1 spiky _ (by decide) hspiky⟩, fun h => ?_⟩
  have hone : (list [.text "a\",\"b"]).IsNative := .list (List.forall_mem_singleton.2 (.text _))
  have htwo : (list [.text "a", .text "b"]).IsNative :=
    .list (List.forall_mem_cons.2 ⟨.text _, List.forall_mem_singleton.2 (.text _)⟩)
  have hsame := (literal_closed_and_faithful.2 _ _ hone htwo (by decide) (by decide)).2 _ h rfl
  cases hsame

end Value

end RecordQuery
