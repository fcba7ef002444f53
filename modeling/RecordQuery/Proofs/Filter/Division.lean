import Mathlib.Data.List.TakeWhile
import RecordQuery.Proofs.Filter.Scan
import RecordQuery.Proofs.Table

/-!
The one way to divide a filter text at its tokens.

* `Division` is a text in front of a first token and, for each token, its key with the text up to
  the next one. `Division.Divides` says that no token begins inside of these texts, on
  whatever position of the whole text one starts to read.
* `divides_iff`: every text has exactly one such division, and it is the one that the scan finds.
* `fillPieces_pieces` and `fillPieces_of_fault`: what becomes of the tokens when values are put in
  their place, and which fault it is that ends the work.
-/

namespace RecordQuery

namespace Filter

/-! ### Tokens -/

/-- The key of a token holds at least one character, and no closing brace. -/
def IsKey (key : Text) : Prop := key ≠ [] ∧ ∀ c ∈ key, c ≠ '}'

/-- The text begins with a token. -/
def StartsWithToken (t : Text) : Prop := ∃ key rest, IsKey key ∧ t = placeholder key ++ rest

/-- No token begins inside of the text, with `rest` behind it. -/
def Bare (t rest : Text) : Prop :=
  ∀ front back, t = front ++ back → back ≠ [] → ¬StartsWithToken (back ++ rest)

/-- What is read as a token has a key. -/
lemma isKey_of_readToken? {t key after : Text} (h : readToken? t = some (key, after)) :
    IsKey key := by
  unfold readToken? at h
  split at h
  case h_1 rest =>
    split at h
    · simp at h
    · dsimp only at h
      split at h
      case isTrue => simp at h
      case isFalse hne =>
        obtain ⟨rfl, -⟩ := Prod.mk.inj (Option.some.inj h)
        exact ⟨hne, fun c hc => by simpa using List.mem_takeWhile_imp hc⟩
  case h_2 => simp at h

/-- A token is read off the front of a text exactly if one begins there. -/
lemma startsWithToken_iff {t : Text} :
    StartsWithToken t ↔ ∃ key after, readToken? t = some (key, after) := by
  constructor
  · rintro ⟨key, rest, ⟨hne, hkey⟩, rfl⟩
    exact ⟨key, rest, readToken?_placeholder hne hkey rest⟩
  · rintro ⟨key, after, h⟩
    exact ⟨key, after, isKey_of_readToken? h, eq_append_of_readToken? h⟩

lemma readToken?_eq_none_iff {t : Text} : readToken? t = none ↔ ¬StartsWithToken t := by
  rw [startsWithToken_iff, Option.eq_none_iff_forall_ne_some]
  simp

lemma Bare.nil (rest : Text) : Bare [] rest := by
  intro front back h hne
  exact absurd (List.append_eq_nil_iff.1 h.symm).2 hne

lemma bare_cons_iff {c : Char} {t rest : Text} :
    Bare (c :: t) rest ↔ ¬StartsWithToken (c :: (t ++ rest)) ∧ Bare t rest := by
  constructor
  · intro h
    refine ⟨h [] (c :: t) rfl (List.cons_ne_nil c t), fun front back ht => ?_⟩
    exact h (c :: front) back (congrArg (c :: ·) ht)
  · rintro ⟨hfirst, h⟩ front back ht hne
    cases front with
    | nil =>
        obtain rfl : c :: t = back := ht
        exact hfirst
    | cons d front => exact h front back (List.cons.inj ht).2 hne

/-- Text inside of which no token begins is cut into its characters. -/
theorem pieces_append_of_bare {t rest : Text} (h : Bare t rest) :
    pieces (t ++ rest) = t.map .char ++ pieces rest := by
  induction t with
  | nil => rfl
  | cons c t ih =>
      obtain ⟨hfirst, h⟩ := bare_cons_iff.1 h
      rw [List.cons_append, pieces_cons_of_none (readToken?_eq_none_iff.2 hfirst), ih h]
      rfl

/-! ### Divisions -/

/-- A text divided at tokens: what stands in front of the first one, and the key of each with the
text behind it. -/
structure Division where
  front : Text
  tokens : List (Text × Text)

namespace Division

/-- The keys of the tokens, from left to right. -/
def keys (d : Division) : List Text := Table.keys d.tokens

/-- The text with something in the place of each token. -/
def substitute (d : Division) (replacement : Text → Text) : Text :=
  d.front ++ d.tokens.flatMap fun (key, t) => replacement key ++ t

/-- The text that is divided. -/
def text (d : Division) : Text := d.substitute placeholder

/-- The division is one of the text at all its tokens: none begins inside of the texts around
them. -/
structure Divides (d : Division) (raw : Text) : Prop where
  text_eq : d.text = raw
  isKey : ∀ key ∈ d.keys, IsKey key
  bare_front : Bare d.front (text ⟨[], d.tokens⟩)
  bare_behind : ∀ before key t behind, d.tokens = before ++ (key, t) :: behind →
    Bare t (text ⟨[], behind⟩)

/-- The tokens and the characters around them. -/
def pieces (d : Division) : List Piece :=
  d.front.map .char ++ d.tokens.flatMap fun (key, t) => .token key :: t.map .char

/-- The division at the tokens among pieces. -/
def ofPieces : List Piece → Division
  | [] => ⟨[], []⟩
  | .char c :: ps => ⟨c :: (ofPieces ps).front, (ofPieces ps).tokens⟩
  | .token key :: ps => ⟨[], (key, (ofPieces ps).front) :: (ofPieces ps).tokens⟩

variable {d : Division} {raw : Text}

lemma text_mk (front : Text) (tokens : List (Text × Text)) :
    text ⟨front, tokens⟩ = front ++ text ⟨[], tokens⟩ := rfl

lemma text_cons (key t : Text) (behind : List (Text × Text)) :
    text ⟨[], (key, t) :: behind⟩ = placeholder key ++ text ⟨t, behind⟩ :=
  List.append_assoc (placeholder key) t _

lemma pieces_cons (front key t : Text) (behind : List (Text × Text)) :
    pieces ⟨front, (key, t) :: behind⟩ = front.map .char ++ .token key :: pieces ⟨t, behind⟩ := rfl

/-- What is behind the first token is divided as well. -/
lemma Divides.behind {front key t : Text} {behind : List (Text × Text)}
    (h : Divides ⟨front, (key, t) :: behind⟩ raw) :
    Divides ⟨t, behind⟩ (text ⟨t, behind⟩) where
  text_eq := rfl
  isKey := fun k hk => h.isKey k (List.mem_cons_of_mem _ hk)
  bare_front := h.bare_behind [] key t behind rfl
  bare_behind := fun before k u rest htokens =>
    h.bare_behind ((key, t) :: before) k u rest (congrArg ((key, t) :: ·) htokens)

/-- The scan finds the tokens of every division. -/
theorem Divides.pieces_eq (h : d.Divides raw) : Filter.pieces raw = d.pieces := by
  obtain ⟨front, tokens⟩ := d
  induction tokens generalizing front raw with
  | nil =>
      rw [← h.text_eq, text_mk, pieces_append_of_bare h.bare_front]
      exact congrArg _ pieces_nil
  | cons entry behind ih =>
      obtain ⟨key, t⟩ := entry
      obtain ⟨hne, hkey⟩ := h.isKey key List.mem_cons_self
      rw [← h.text_eq, text_mk, pieces_append_of_bare h.bare_front, text_cons,
        pieces_placeholder_append hne hkey, ih t h.behind, pieces_cons]

lemma ofPieces_chars_append (t : Text) (ps : List Piece) :
    ofPieces (t.map .char ++ ps) = ⟨t ++ (ofPieces ps).front, (ofPieces ps).tokens⟩ := by
  induction t with
  | nil => rfl
  | cons c t ih => rw [List.map_cons, List.cons_append, ofPieces, ih, List.cons_append]

/-- A division is known by its pieces. -/
lemma ofPieces_pieces (d : Division) : ofPieces d.pieces = d := by
  obtain ⟨front, tokens⟩ := d
  induction tokens generalizing front with
  | nil =>
      rw [pieces, ofPieces_chars_append]
      simp [ofPieces]
  | cons entry behind ih =>
      obtain ⟨key, t⟩ := entry
      rw [pieces_cons, ofPieces_chars_append, ofPieces, ih t, List.append_nil]

/-- The pieces that the scan finds make a division. -/
lemma divides_ofPieces (raw : Text) : (ofPieces (Filter.pieces raw)).Divides raw := by
  fun_induction Filter.pieces raw with
  | case1 =>
      exact ⟨rfl, List.forall_mem_nil _, Bare.nil _, fun before _ _ _ h => by simp [ofPieces] at h⟩
  | case2 c rest key after hread ih =>
      have hafter : text ⟨[], (key, (ofPieces (Filter.pieces after)).front)
          :: (ofPieces (Filter.pieces after)).tokens⟩ = placeholder key ++ after := by
        rw [text_cons]
        exact congrArg (placeholder key ++ ·) ih.text_eq
      rw [ofPieces]
      refine ⟨hafter.trans (eq_append_of_readToken? hread).symm, ?_, Bare.nil _, ?_⟩
      · exact List.forall_mem_cons.2 ⟨isKey_of_readToken? hread, ih.isKey⟩
      · intro before k t behind htokens
        cases before with
        | nil =>
            obtain ⟨heq, rfl⟩ := List.cons.inj htokens
            obtain ⟨-, rfl⟩ := Prod.mk.inj heq
            exact ih.bare_front
        | cons entry before => exact ih.bare_behind before k t behind (List.cons.inj htokens).2
  | case3 c rest hread ih =>
      have hfirst : ¬StartsWithToken (c :: rest) := readToken?_eq_none_iff.1 hread
      rw [ofPieces]
      refine ⟨congrArg (c :: ·) ih.text_eq, ih.isKey, bare_cons_iff.2 ⟨?_, ih.bare_front⟩,
        ih.bare_behind⟩
      rwa [← text_mk, show text ⟨_, _⟩ = rest from ih.text_eq]

/-- **Unique division**: a text is divided at its tokens in one way, the one that the scan finds. -/
theorem divides_iff : d.Divides raw ↔ d = ofPieces (Filter.pieces raw) := by
  constructor
  · intro h
    rw [h.pieces_eq, ofPieces_pieces]
  · rintro rfl
    exact divides_ofPieces raw

/-- The keys of a division are those of the tokens that the scan finds. -/
lemma Divides.tokenKeys_eq (h : d.Divides raw) : tokenKeys raw = d.keys := by
  have hchars (t : Text) : (t.map Piece.char).filterMap Piece.key? = [] := by
    rw [List.filterMap_map]
    exact List.filterMap_eq_nil_iff.2 fun _ _ => rfl
  have htokens (tokens : List (Text × Text)) :
      (tokens.flatMap fun (key, t) => Piece.token key :: t.map .char).filterMap Piece.key?
        = Table.keys tokens := by
    induction tokens with
    | nil => rfl
    | cons entry tokens ih =>
        obtain ⟨key, t⟩ := entry
        have hkey : (Piece.token key).key? = some key := rfl
        rw [List.flatMap_cons, List.cons_append, List.filterMap_cons_some hkey,
          List.filterMap_append, hchars, List.nil_append, ih, Table.keys_cons]
  rw [tokenKeys, h.pieces_eq, Division.pieces, List.filterMap_append, hchars, List.nil_append,
    htokens]
  rfl

/-! ### Putting values in the place of tokens -/

variable {values : Table Text Value}

/-- Where every token can be replaced, filling in is substitution. -/
theorem fillPieces_pieces {replacement : Text → Text}
    (h : ∀ key ∈ d.keys, fillPiece values (.token key) = .ok (replacement key)) :
    fillPieces values d.pieces = .ok (d.substitute replacement) := by
  obtain ⟨front, tokens⟩ := d
  induction tokens generalizing front with
  | nil =>
      rw [pieces, fillPieces_chars_append]
      rfl
  | cons entry behind ih =>
      obtain ⟨key, t⟩ := entry
      obtain ⟨hkey, h⟩ := List.forall_mem_cons.1 h
      rw [pieces_cons, fillPieces_chars_append, fillPieces, hkey, ih t h]
      simp [substitute, Except.map, bind, Except.bind, pure, Except.pure]

/-- The first token that cannot be replaced ends the work with its fault. -/
theorem fillPieces_of_fault {fault : Fault} {before behind : List Text} {key : Text}
    (hkeys : d.keys = before ++ key :: behind)
    (hbefore : ∀ k ∈ before, (fillPiece values (.token k)).isOk)
    (hfault : fillPiece values (.token key) = .error fault) :
    fillPieces values d.pieces = .error fault := by
  obtain ⟨front, tokens⟩ := d
  induction tokens generalizing front before with
  | nil => simp [keys, Table.keys] at hkeys
  | cons entry rest ih =>
      obtain ⟨k, t⟩ := entry
      have hcons : k :: Table.keys rest = before ++ key :: behind := hkeys
      rw [pieces_cons, fillPieces_chars_append, fillPieces]
      cases before with
      | nil =>
          obtain ⟨rfl, -⟩ := List.cons.inj hcons
          rw [hfault]
          rfl
      | cons first before =>
          obtain ⟨rfl, hrest⟩ := List.cons.inj hcons
          obtain ⟨hfirst, hbefore⟩ := List.forall_mem_cons.1 hbefore
          rw [ih hbefore t hrest]
          cases hk : fillPiece values (.token k) with
          | ok filled => rfl
          | error other => simp [hk, Except.isOk, Except.toBool] at hfirst

end Division

end Filter

end RecordQuery
