import Mathlib.Tactic.Common
import RecordQuery.Filter.Token

/-!
How the scan for tokens goes through a text that is put together from parts.

* `pieces_append_of_ne`: text without an opening brace is cut into its characters.
* `pieces_placeholder_append`: a token is found as it was written, whatever stands behind it.
* `fillPieces_chars_append` and `fillPieces_token_cons`: such parts are filled in one by one.
* `OpenFilter.close_of_isSome`: a filter all of whose tokens have a value closes in both ways as it
  is filled in, and nothing is logged.
-/

namespace RecordQuery

namespace Filter

@[simp]
lemma pieces_nil : pieces [] = [] := by rw [pieces]

lemma readToken?_cons_of_ne {c : Char} (h : c ≠ '{') (rest : Text) :
    readToken? (c :: rest) = none := by
  unfold readToken?
  split
  case h_1 heq => exact absurd (List.cons.inj heq).1 h
  case h_2 => rfl

/-- A token is read off the front of a text if its key is not empty and holds no closing brace. -/
lemma readToken?_placeholder {key : Text} (hne : key ≠ []) (hkey : ∀ c ∈ key, c ≠ '}')
    (rest : Text) : readToken? (placeholder key ++ rest) = some (key, rest) := by
  have hall : ∀ c ∈ key, decide (c ≠ '}') = true := fun c hc => decide_eq_true (hkey c hc)
  have htake : (key ++ '}' :: rest).takeWhile (· ≠ '}') = key := by
    rw [List.takeWhile_append_of_pos hall]
    simp
  have hdrop : (key ++ '}' :: rest).dropWhile (· ≠ '}') = '}' :: rest := by
    rw [List.dropWhile_append_of_pos hall]
    simp
  have htext : placeholder key ++ rest = '{' :: ':' :: (key ++ '}' :: rest) := by
    simp [placeholder]
  rw [htext, readToken?]
  simp only [htake, hdrop, if_neg hne]

lemma pieces_cons_of_none {c : Char} {rest : Text} (h : readToken? (c :: rest) = none) :
    pieces (c :: rest) = .char c :: pieces rest := by
  rw [pieces]
  split
  case h_1 hread => exact absurd (h.symm.trans hread) (by simp)
  case h_2 => rfl

lemma pieces_of_readToken? {t key after : Text} (h : readToken? t = some (key, after)) :
    pieces t = .token key :: pieces after := by
  cases t with
  | nil => exact absurd h (by simp [readToken?])
  | cons c rest =>
      rw [pieces]
      split
      case h_1 hread =>
        obtain ⟨rfl, rfl⟩ := Prod.mk.inj (Option.some.inj (h.symm.trans hread))
        rfl
      case h_2 hread => exact absurd (h.symm.trans hread) (by simp)

/-- Text without an opening brace is cut into its characters. -/
theorem pieces_append_of_ne {t : Text} (h : ∀ c ∈ t, c ≠ '{') (rest : Text) :
    pieces (t ++ rest) = t.map .char ++ pieces rest := by
  induction t with
  | nil => rfl
  | cons c t ih =>
      have hnone := readToken?_cons_of_ne (h c List.mem_cons_self) (t ++ rest)
      rw [List.cons_append, pieces_cons_of_none hnone,
        ih fun x hx => h x (List.mem_cons_of_mem _ hx)]
      rfl

/-- A token is found as it was written. -/
theorem pieces_placeholder_append {key : Text} (hne : key ≠ []) (hkey : ∀ c ∈ key, c ≠ '}')
    (rest : Text) : pieces (placeholder key ++ rest) = .token key :: pieces rest :=
  pieces_of_readToken? (readToken?_placeholder hne hkey rest)

lemma tokenKeys_append_of_ne {t : Text} (h : ∀ c ∈ t, c ≠ '{') (rest : Text) :
    tokenKeys (t ++ rest) = tokenKeys rest := by
  have hchars : (t.map Piece.char).filterMap Piece.key? = [] := by
    rw [List.filterMap_map]
    exact List.filterMap_eq_nil_iff.2 fun _ _ => rfl
  rw [tokenKeys, pieces_append_of_ne h, List.filterMap_append, hchars]
  rfl

lemma tokenKeys_placeholder_append {key : Text} (hne : key ≠ []) (hkey : ∀ c ∈ key, c ≠ '}')
    (rest : Text) : tokenKeys (placeholder key ++ rest) = key :: tokenKeys rest := by
  rw [tokenKeys, pieces_placeholder_append hne hkey]
  rfl

variable (values : Table Text Value)

/-- Characters stay as they are. -/
lemma fillPieces_chars_append (t : Text) (ps : List Piece) :
    fillPieces values (t.map .char ++ ps) = (fillPieces values ps).map (t ++ ·) := by
  induction t with
  | nil =>
      rw [List.map_nil, List.nil_append]
      cases fillPieces values ps <;> rfl
  | cons c t ih =>
      rw [List.map_cons, List.cons_append, fillPieces, ih]
      cases fillPieces values ps <;> rfl

variable {values}

/-- A token with a value makes room for the literal of the value. -/
lemma fillPieces_token_cons {key : Text} {value : Value} (h : values.get? key = some value)
    (ps : List Piece) :
    fillPieces values (.token key :: ps)
      = value.literal.bind fun t => (fillPieces values ps).map (t ++ ·) := by
  have hpiece : fillPiece values (.token key) = value.literal := by
    rw [fillPiece]
    simp only [Piece.key?, Option.bind_some, h]
  rw [fillPieces, hpiece]
  cases value.literal with
  | error fault => rfl
  | ok t => cases fillPieces values ps <;> rfl

end Filter

namespace OpenFilter

variable {f : OpenFilter}

/-- A filter that can be filled in closes to the text, unless tokens without a value are refused. -/
lemma close_of_fill {t : Text} (h : f.fill = .ok t) (strict : Bool) :
    f.close strict =
      if f.unboundKeys = [] then ⟨.ok t, []⟩
      else if strict then ⟨.error (.unbound f.unboundKeys), []⟩
      else ⟨.ok t, [unboundWarning f.unboundKeys]⟩ := by
  rw [close, h]
  cases f.unboundKeys <;> simp

/-- Tokens without a value are no reason to refuse a filter that is not closed strictly. -/
lemma result_close_false (f : OpenFilter) : (f.close false).result = f.fill := by
  cases hfill : f.fill with
  | error fault => rw [close, hfill]
  | ok t =>
      rw [close_of_fill hfill]
      split <;> rfl

/-- A filter all of whose tokens have values is never refused for its tokens, and nothing is
logged. -/
theorem close_of_isSome (h : ∀ key ∈ Filter.tokenKeys f.query, (f.values.get? key).isSome)
    (strict : Bool) : f.close strict = ⟨f.fill, []⟩ := by
  have hnone : (Filter.tokenKeys f.query).filter (fun key => (f.values.get? key).isNone) = [] := by
    refine List.filter_eq_nil_iff.2 fun key hkey => ?_
    simpa [Option.isSome_iff_ne_none] using h key hkey
  have hunbound : f.unboundKeys = [] := by
    rw [unboundKeys, hnone]
    rfl
  rw [close]
  cases f.fill with
  | error fault => rfl
  | ok t => simp only [hunbound]

/-- A filter closes in silence if all its tokens have values that can be written. -/
theorem close_eq_of_fill {t : Text} (hfill : f.fill = .ok t)
    (hkeys : ∀ key ∈ Filter.tokenKeys f.query, (f.values.get? key).isSome) (strict : Bool) :
    f.close strict = ⟨.ok t, []⟩ := by
  rw [close_of_isSome hkeys, hfill]

end OpenFilter

end RecordQuery
