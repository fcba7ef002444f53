import RecordQuery.Proofs.Filter.Numbering

/-!
What is kept when fields share keys.

* `Crosses` says when a value of one field gets the key of a value of a longer field, in terms of the
  two fields and the two ordinals. `append_numeral_eq_iff`: apart from a value and itself, only such
  values share a key.
* `Placeholders.keysOf` are the keys of calls in closed form: the ordinal of each is one more than
  the number of earlier calls for its field (`Placeholders.ordinalAt`).
* `Placeholders.contents_ofCalls`: these keys are returned, each is kept where it came first with the
  value that came last, and two calls share a key exactly if their fields cross.
-/

namespace RecordQuery

/-! ### Two fields with one key -/

/-- The value of `f` with the ordinal `m` has the key of the value of `g` with the ordinal `n`, where
`g` is the longer field: it has digits behind `f`, without a leading zero, with which `m` begins, and
`n` is what is left of `m`. -/
def Crosses (f : Text) (m : Nat) (g : Text) (n : Nat) : Prop :=
  ∃ digits : Text, digits ≠ [] ∧ (∀ c ∈ digits, c.isDigit = true) ∧ digits.head? ≠ some '0'
    ∧ g = f ++ digits ∧ Text.numeral m = digits ++ Text.numeral n

lemma crosses_numeral (f : Text) {k m n : Nat} (hk : 0 < k)
    (h : Text.numeral m = Text.numeral k ++ Text.numeral n) :
    Crosses f m (f ++ Text.numeral k) n :=
  ⟨Text.numeral k, Text.numeral_ne_nil k, fun _ => Text.isDigit_of_mem_numeral,
    Text.head?_numeral_ne hk, rfl, h⟩

namespace Crosses

variable {f g : Text} {m n : Nat}

lemma field_ne (h : Crosses f m g n) : f ≠ g := by
  obtain ⟨digits, hne, -, -, rfl, -⟩ := h
  simpa using Ne.symm hne

lemma key_eq (h : Crosses f m g n) : f ++ Text.numeral m = g ++ Text.numeral n := by
  obtain ⟨digits, -, -, -, rfl, hcut⟩ := h
  rw [hcut, List.append_assoc]

end Crosses

/-- A key belongs to one field and one ordinal, or to two fields that cross. -/
theorem append_numeral_eq_iff {f g : Text} {m n : Nat} (hm : 0 < m) (hn : 0 < n) :
    f ++ Text.numeral m = g ++ Text.numeral n
      ↔ (f = g ∧ m = n) ∨ (f ≠ g ∧ (Crosses f m g n ∨ Crosses g n f m)) := by
  constructor
  · intro h
    rcases append_numeral_eq_cases hm hn h with hsame | ⟨k, hk, rfl, hcut⟩ | ⟨k, hk, rfl, hcut⟩
    · exact Or.inl hsame
    · have hcross := crosses_numeral f hk hcut
      exact Or.inr ⟨hcross.field_ne, Or.inl hcross⟩
    · have hcross := crosses_numeral g hk hcut
      exact Or.inr ⟨hcross.field_ne.symm, Or.inr hcross⟩
  · rintro (⟨rfl, rfl⟩ | ⟨-, h | h⟩)
    · rfl
    · exact h.key_eq
    · exact h.key_eq.symm

/-! ### Keys in closed form -/

lemma keysAfter_eq_mapIdx (earlier fields : List Text) :
    keysAfter earlier fields = fields.mapIdx fun place field =>
      field ++ Text.numeral ((earlier ++ fields.take place).count field + 1) := by
  induction fields generalizing earlier with
  | nil => rfl
  | cons field fields ih => simp [ih]

namespace Placeholders

/-- One more than the number of calls for a field in front of a place: the ordinal of the call at
that place if it is for the field. -/
def ordinalAt (calls : List (Text × Value)) (place : Nat) (field : Text) : Nat :=
  ((calls.take place).map Prod.fst).count field + 1

/-- The field with the ordinal of the call at a place behind it. -/
def keyAt (calls : List (Text × Value)) (place : Nat) (field : Text) : Text :=
  field ++ Text.numeral (ordinalAt calls place field)

/-- The keys that calls get. -/
def keysOf (calls : List (Text × Value)) : List Text :=
  calls.mapIdx fun place call => keyAt calls place call.1

variable {calls : List (Text × Value)}

lemma keysAfter_eq_keysOf (calls : List (Text × Value)) :
    keysAfter [] (calls.map Prod.fst) = keysOf calls := by
  refine List.ext_getElem? fun place => ?_
  rw [keysAfter_eq_mapIdx, keysOf, List.getElem?_mapIdx, List.getElem?_mapIdx, List.getElem?_map,
    Option.map_map]
  simp [Function.comp_def, keyAt, ordinalAt, List.map_take]

lemma getElem?_keysOf {place : Nat} {field : Text} {value : Value}
    (h : calls[place]? = some (field, value)) :
    (keysOf calls)[place]? = some (keyAt calls place field) := by
  rw [keysOf, List.getElem?_mapIdx, h]
  rfl

/-- A call for a field raises the ordinals of the later ones. -/
lemma ordinalAt_lt {i j : Nat} {field : Text} {value : Value} (hij : i < j)
    (h : calls[i]? = some (field, value)) : ordinalAt calls i field < ordinalAt calls j field := by
  have hnext : ordinalAt calls (i + 1) field = ordinalAt calls i field + 1 := by
    simp [ordinalAt, List.take_add_one, h]
  have hle : ((calls.take (i + 1)).map Prod.fst).count field
      ≤ ((calls.take j).map Prod.fst).count field :=
    ((List.take_sublist_take_left hij).map Prod.fst).count_le field
  simp only [ordinalAt] at hnext hle ⊢
  omega

/-- Two calls get the same key exactly if their fields cross. -/
lemma getElem?_keysOf_eq_iff {i j : Nat} {f g : Text} {v w : Value} (hij : i < j)
    (hi : calls[i]? = some (f, v)) (hj : calls[j]? = some (g, w)) :
    (keysOf calls)[i]? = (keysOf calls)[j]?
      ↔ f ≠ g ∧ (Crosses f (ordinalAt calls i f) g (ordinalAt calls j g)
          ∨ Crosses g (ordinalAt calls j g) f (ordinalAt calls i f)) := by
  have hm : 0 < ordinalAt calls i f := Nat.succ_pos _
  have hn : 0 < ordinalAt calls j g := Nat.succ_pos _
  rw [getElem?_keysOf hi, getElem?_keysOf hj, Option.some.injEq, keyAt, keyAt,
    append_numeral_eq_iff hm hn]
  refine or_iff_right ?_
  rintro ⟨rfl, hsame⟩
  exact absurd hsame (Nat.ne_of_lt (ordinalAt_lt hij hi))

/-! ### The contents -/

lemma keys_values_ofCalls (calls : List (Text × Value)) :
    (ofCalls calls).values.keys = (keysOf calls).eraseDups := by
  rw [values_ofCalls, Table.keys_ofList, keys_entriesAfter, keysAfter_eq_keysOf]

/-- The last call with a key gives it its value. -/
lemma get?_ofCalls_of_last {place : Nat} {field : Text} {value : Value}
    (h : calls[place]? = some (field, value))
    (hlast : keyAt calls place field ∉ (keysOf calls).drop (place + 1)) :
    (ofCalls calls).values.get? (keyAt calls place field) = some value := by
  have hkeys : Table.keys (entriesAfter [] calls) = keysOf calls := by
    rw [keys_entriesAfter, keysAfter_eq_keysOf]
  have hentry : (entriesAfter [] calls)[place]? = some (keyAt calls place field, value) := by
    rw [entriesAfter, keysAfter_eq_keysOf, List.getElem?_zip_eq_some, List.getElem?_map, h]
    exact ⟨getElem?_keysOf h, rfl⟩
  rw [values_ofCalls]
  exact Table.get?_ofList_of_last hentry (by rwa [hkeys])

/-- **Exact contents**: each value that is put aside for a text gets the text with one more than the
number of earlier values of that text behind it. The table holds each of these keys once, where it
came first, with the value that came last. Two calls share a key exactly if their fields are not the
same and the longer field is the shorter one with digits behind it, with which the ordinal of the
shorter one begins and the ordinal of the longer one goes on. So the keys are distinct if no field is
another one with digits behind it. -/
theorem contents_ofCalls (calls : List (Text × Value)) :
    ({} : Placeholders).addEach (ofTextFields calls)
        = ((keysOf calls).mapIdx fun place key => (.ok key, ofCalls (calls.take (place + 1))))
      ∧ (ofCalls calls).values.keys = (keysOf calls).eraseDups
      ∧ (∀ place field value, calls[place]? = some (field, value) →
          keyAt calls place field ∉ (keysOf calls).drop (place + 1) →
          (ofCalls calls).values.get? (keyAt calls place field) = some value)
      ∧ (∀ i j f g v w, i < j → calls[i]? = some (f, v) → calls[j]? = some (g, w) →
          ((keysOf calls)[i]? = (keysOf calls)[j]?
            ↔ f ≠ g ∧ (Crosses f (ordinalAt calls i f) g (ordinalAt calls j g)
                ∨ Crosses g (ordinalAt calls j g) f (ordinalAt calls i f))))
      ∧ ((∀ f ∈ calls.map Prod.fst, ∀ g ∈ calls.map Prod.fst, ∀ digits : Text, digits ≠ [] →
            (∀ c ∈ digits, c.isDigit = true) → g ≠ f ++ digits) →
          (keysOf calls).Nodup) := by
  refine ⟨?_, keys_values_ofCalls calls, fun _ _ _ => get?_ofCalls_of_last,
    fun _ _ _ _ _ _ => getElem?_keysOf_eq_iff, fun h => ?_⟩
  · rw [addEach_ofTextFields hasSeen_empty, keysAfter_eq_keysOf]
    rfl
  · rw [← keysAfter_eq_keysOf]
    exact (nodup_keysAfter_iff _).2 (Separate.of_forall_ne h)

/-- Ten values for the field without a name, one for the field `1`, and one more for the former. -/
def namelessCalls : List (Text × Value) :=
  List.replicate 10 ([], .null) ++ [(['1'], .int 1), ([], .int 2)]

/-- The eleventh value of the field without a name takes the place of the first value of `1`. -/
theorem contents_namelessCalls :
    (keysOf namelessCalls)[10]? = (keysOf namelessCalls)[11]?
      ∧ (ofCalls namelessCalls).values.keys = (keysOf namelessCalls).take 11
      ∧ (ofCalls namelessCalls).values.get? ['1', '1'] = some (.int 2) := by
  obtain ⟨-, hkeys, hlast, hshared, -⟩ := contents_ofCalls namelessCalls
  have hcross : Crosses [] 11 ['1'] 1 :=
    ⟨['1'], List.cons_ne_nil _ _, by simp, by decide, rfl, rfl⟩
  refine ⟨(hshared 10 11 _ _ _ _ (by decide) rfl rfl).2 ⟨by decide, Or.inr hcross⟩, ?_, ?_⟩
  · rw [hkeys]
    decide
  · exact hlast 11 [] (.int 2) rfl (by decide)

end Placeholders

end RecordQuery
