import RecordQuery.Proofs.Filter.Division
import RecordQuery.Proofs.Text.Repetition

/-!
Closing a filter piece by piece.

* `Text.ClosesBraces` holds of a text in which every opening brace has a closing one behind it. A
  token that begins in such a text ends there, whatever follows (`Filter.readToken?_append`). So the
  scan goes through the text as if it were alone, and then through the rest
  (`Filter.pieces_append`).
* `Filter.fillPieces_append`: pieces are filled in one after the other, and the first fault ends the
  work.
* `OpenFilter.close_append`: so a filter whose text is put together from such a text and another
  one closes to what the two close to.
-/

namespace RecordQuery

/-! ### Texts that close their braces -/

namespace Text

/-- Every opening brace of the text has a closing brace behind it. -/
def ClosesBraces (t : Text) : Prop := ∀ front back, t = front ++ '{' :: back → '}' ∈ back

lemma closesBraces_nil : ClosesBraces [] := fun front back h => by simp at h

lemma closesBraces_cons_iff {c : Char} {t : Text} :
    ClosesBraces (c :: t) ↔ (c = '{' → '}' ∈ t) ∧ ClosesBraces t := by
  constructor
  · intro h
    refine ⟨?_, fun front back ht => h (c :: front) back (congrArg (c :: ·) ht)⟩
    rintro rfl
    exact h [] t rfl
  · rintro ⟨hfirst, h⟩ front back ht
    cases front with
    | nil =>
        obtain ⟨rfl, rfl⟩ := List.cons.inj ht
        exact hfirst rfl
    | cons d front => exact h front back (List.cons.inj ht).2

instance decidableClosesBraces : (t : Text) → Decidable t.ClosesBraces
  | [] => isTrue closesBraces_nil
  | _ :: t =>
    have := decidableClosesBraces t
    decidable_of_iff _ closesBraces_cons_iff.symm

/-- What is left of the text closes its braces as well. -/
lemma ClosesBraces.of_append {s t : Text} (h : ClosesBraces (s ++ t)) : ClosesBraces t :=
  fun front back ht => h (s ++ front) back (by rw [ht, List.append_assoc])

end Text

open Text (ClosesBraces)

/-! ### The scan -/

namespace Filter

/-- Where a closing brace follows, a token that begins with the first character ends in front of
what is put behind. -/
lemma startsWithToken_of_append {c : Char} {t rest : Text} (hclose : c = '{' → '}' ∈ t)
    (h : StartsWithToken (c :: (t ++ rest))) : StartsWithToken (c :: t) := by
  obtain ⟨key, tail, hkey, heq⟩ := h
  have htext : c :: (t ++ rest) = '{' :: ((':' :: key) ++ ('}' :: tail)) := by
    simpa [placeholder] using heq
  obtain ⟨rfl, hrest⟩ := List.cons.inj htext
  have hmem := hclose rfl
  have hbrace : '}' ∉ ':' :: key := by
    rw [List.mem_cons, not_or]
    exact ⟨by decide, fun hin => hkey.2 _ hin rfl⟩
  -- the token ends at the first closing brace, and there is one in front of what is put behind
  rcases List.append_eq_append_iff.1 hrest with ⟨more, hinside, -⟩ | ⟨more, rfl, hbehind⟩
  · exact absurd (hinside ▸ List.mem_append_left _ hmem) hbrace
  · cases more with
    | nil => exact absurd (by simpa using hmem) hbrace
    | cons d more =>
        obtain ⟨rfl, -⟩ := List.cons.inj hbehind
        exact ⟨key, more, hkey, by simp [placeholder]⟩

/-- What is read at the first character does not depend on what is put behind, where an opening
brace has a closing one behind it. -/
lemma readToken?_append {c : Char} {t : Text} (hclose : c = '{' → '}' ∈ t) (rest : Text) :
    readToken? (c :: (t ++ rest))
      = (readToken? (c :: t)).map fun (key, after) => (key, after ++ rest) := by
  cases hread : readToken? (c :: t) with
  | none =>
      rw [readToken?_eq_none_iff] at hread
      exact readToken?_eq_none_iff.2 fun h => hread (startsWithToken_of_append hclose h)
  | some token =>
      obtain ⟨key, after⟩ := token
      obtain ⟨hne, hkey⟩ := isKey_of_readToken? hread
      rw [← List.cons_append, eq_append_of_readToken? hread, List.append_assoc]
      exact readToken?_placeholder hne hkey (after ++ rest)

/-- **The scan is piecewise**: a text that closes its braces is cut as it is alone, and what is put
behind it is cut as it is alone. -/
theorem pieces_append {t : Text} (h : t.ClosesBraces) (rest : Text) :
    pieces (t ++ rest) = pieces t ++ pieces rest := by
  fun_induction pieces t with
  | case1 => rfl
  | case2 c t key after hread ih =>
      have hafter : ClosesBraces after := (eq_append_of_readToken? hread ▸ h).of_append
      have hwhole := readToken?_append (Text.closesBraces_cons_iff.1 h).1 rest
      rw [hread, Option.map_some] at hwhole
      rw [List.cons_append, pieces_of_readToken? hwhole, ih hafter, List.cons_append]
  | case3 c t hread ih =>
      obtain ⟨hclose, ht⟩ := Text.closesBraces_cons_iff.1 h
      have hwhole := readToken?_append hclose rest
      rw [hread, Option.map_none] at hwhole
      rw [List.cons_append, pieces_cons_of_none hwhole, ih ht, List.cons_append]

/-- An opening at the end of a text can begin a token with what is put behind it. -/
example : pieces ("\x7b" ++ ":a\x7d" : Text) = [.token ['a']] := by cbv

/-- Pieces are filled in one after the other. -/
lemma fillPieces_append (values : Table Text Value) (ps qs : List Piece) :
    fillPieces values (ps ++ qs)
      = (fillPieces values ps).bind fun t => (fillPieces values qs).map (t ++ ·) := by
  induction ps with
  | nil =>
      rw [List.nil_append]
      cases fillPieces values qs <;> rfl
  | cons p ps ih =>
      rw [List.cons_append, fillPieces, fillPieces, ih]
      cases fillPiece values p with
      | error fault => rfl
      | ok first =>
          cases fillPieces values ps with
          | error fault => rfl
          | ok t =>
              cases fillPieces values qs with
              | error fault => rfl
              | ok rest => exact congrArg Except.ok (List.append_assoc first t rest).symm

end Filter

open RecordQuery.Filter

namespace OpenFilter

variable {r₁ r₂ t₁ t₂ : Text} {values : Table Text Value}

/-- The text is filled in up to the end of the first part, and then the second part is. -/
lemma fill_append (h : r₁.ClosesBraces) :
    fill ⟨r₁ ++ r₂, values⟩
      = (fill ⟨r₁, values⟩).bind fun t => (fill ⟨r₂, values⟩).map (t ++ ·) := by
  rw [fill, pieces_append h, fillPieces_append]
  rfl

/-- The keys without a value in the first part come first, and those of the second part follow as
far as they are new. -/
lemma unboundKeys_append (h : r₁.ClosesBraces) :
    unboundKeys ⟨r₁ ++ r₂, values⟩
      = unboundKeys ⟨r₁, values⟩
        ++ (unboundKeys ⟨r₂, values⟩).filter (· ∉ unboundKeys ⟨r₁, values⟩) := by
  rw [unboundKeys, tokenKeys, pieces_append h, List.filterMap_append, List.filter_append]
  exact Text.eraseDups_append _ _

/-- **Closing is piecewise**: where every opening brace of the first text has a closing one behind
it and both texts can be filled in, the two texts put together close to what they close to, put
together. The keys without a value are those of the first text and then those of the second one, as
far as they are new. -/
theorem close_append (hclosed : r₁.ClosesBraces) (h₁ : (close false ⟨r₁, values⟩).result = .ok t₁)
    (h₂ : (close false ⟨r₂, values⟩).result = .ok t₂) :
    let missing := unboundKeys ⟨r₁, values⟩
      ++ (unboundKeys ⟨r₂, values⟩).filter (· ∉ unboundKeys ⟨r₁, values⟩)
    unboundKeys ⟨r₁ ++ r₂, values⟩ = missing
      ∧ close false ⟨r₁ ++ r₂, values⟩
        = ⟨.ok (t₁ ++ t₂), if missing = [] then [] else [unboundWarning missing]⟩
      ∧ close true ⟨r₁ ++ r₂, values⟩
        = ⟨if missing = [] then .ok (t₁ ++ t₂) else .error (.unbound missing), []⟩ := by
  intro missing
  have hkeys : unboundKeys ⟨r₁ ++ r₂, values⟩ = missing := unboundKeys_append hclosed
  have hfill : fill ⟨r₁ ++ r₂, values⟩ = .ok (t₁ ++ t₂) := by
    rw [result_close_false] at h₁ h₂
    rw [fill_append hclosed, h₁, h₂]
    rfl
  refine ⟨hkeys, ?_, ?_⟩
  · rw [close_of_fill hfill, hkeys]
    split <;> rfl
  · rw [close_of_fill hfill, hkeys]
    split <;> rfl

/-- An opening without a key, a doubled opening in front of a token, and a token without a value. -/
def firstPiece : Text := "{:}\x7b{:a}={:x}"

/-- What could be the end of a token, two tokens without a value, and an opening at the end. -/
def secondPiece : Text := ":y\x7d{:x}{:y}{:a}\x7b:"

/-- A value for one of the tokens. -/
def pieceValues : Table Text Value := [(['a'], .int 1)]

/-- No token is formed where the pieces meet, and the key `x` is told of once. -/
theorem close_firstPiece_append :
    firstPiece.ClosesBraces
      ∧ (close false ⟨firstPiece, pieceValues⟩).result = .ok "{:}\x7b1={:x}"
      ∧ (close false ⟨secondPiece, pieceValues⟩).result = .ok ":y\x7d{:x}{:y}1\x7b:"
      ∧ close false ⟨firstPiece ++ secondPiece, pieceValues⟩
        = ⟨.ok "{:}\x7b1={:x}:y\x7d{:x}{:y}1\x7b:", [unboundWarning [['x'], ['y']]]⟩ := by
  have hclosed : firstPiece.ClosesBraces := by decide
  have hfirstPieces : pieces firstPiece
      = [.char '{', .char ':', .char '}', .char '{', .token ['a'], .char '=', .token ['x']] := by cbv
  have hsecondPieces : pieces secondPiece
      = [.char ':', .char 'y', .char '}', .token ['x'], .token ['y'], .token ['a'], .char '{',
        .char ':'] := by cbv
  have hfirst : (close false ⟨firstPiece, pieceValues⟩).result = .ok "{:}\x7b1={:x}" := by
    rw [result_close_false, fill, hfirstPieces]
    rfl
  have hsecond : (close false ⟨secondPiece, pieceValues⟩).result = .ok ":y\x7d{:x}{:y}1\x7b:" := by
    rw [result_close_false, fill, hsecondPieces]
    rfl
  have hfirstKeys : unboundKeys ⟨firstPiece, pieceValues⟩ = [['x']] := by
    rw [unboundKeys, tokenKeys, hfirstPieces]
    rfl
  have hsecondKeys : unboundKeys ⟨secondPiece, pieceValues⟩ = [['x'], ['y']] := by
    rw [unboundKeys, tokenKeys, hsecondPieces]
    rfl
  obtain ⟨-, hclose, -⟩ := close_append hclosed hfirst hsecond
  rw [hfirstKeys, hsecondKeys] at hclose
  exact ⟨hclosed, hfirst, hsecond, hclose⟩

end OpenFilter

end RecordQuery
