import Mathlib.Data.List.Nodup
import RecordQuery.Filter.Placeholder
import RecordQuery.Proofs.Table
import RecordQuery.Proofs.Text.Numeral

/-!
The keys that fields get, one value after the other.

* `numbered` pairs every field of a list with its ordinal, and `keysAfter` writes the two as a key.
  `addEach_ofTextFields` and `values_addAll` say that putting values aside returns these keys and
  fills the table under them, given which fields had values before (`Placeholders.HasSeen`).
* `append_numeral_eq_cases`: two fields share a key only if one of them is the other with a
  numeral behind it.
* `nodup_keysAfter_iff`: the keys are distinct exactly if the fields are `Separate`: no field has
  more than `10 * k` values while the field with `k` behind it has any.
* `keys_nodup_iff_separate`: what this means for the values that are kept.
-/

namespace RecordQuery

/-! ### Fields with their ordinals -/

/-- Fields with their ordinals, where other fields have had values before. -/
def numbered (earlier : List Text) : List Text → List (Text × Nat)
  | [] => []
  | field :: fields => (field, earlier.count field + 1) :: numbered (earlier ++ [field]) fields

/-- The keys that fields get, where other fields have had values before. -/
def keysAfter (earlier fields : List Text) : List Text :=
  (numbered earlier fields).map fun (field, ordinal) => field ++ Text.numeral ordinal

@[simp]
lemma keysAfter_nil (earlier : List Text) : keysAfter earlier [] = [] := rfl

@[simp]
lemma keysAfter_cons (earlier : List Text) (field : Text) (fields : List Text) :
    keysAfter earlier (field :: fields)
      = (field ++ Text.numeral (earlier.count field + 1))
        :: keysAfter (earlier ++ [field]) fields := rfl

lemma numbered_append (earlier fields more : List Text) :
    numbered earlier (fields ++ more)
      = numbered earlier fields ++ numbered (earlier ++ fields) more := by
  induction fields generalizing earlier with
  | nil => simp [numbered]
  | cons field fields ih => simp [numbered, ih]

lemma keysAfter_append (earlier fields more : List Text) :
    keysAfter earlier (fields ++ more)
      = keysAfter earlier fields ++ keysAfter (earlier ++ fields) more := by
  simp [keysAfter, numbered_append]

@[simp]
lemma length_keysAfter (earlier fields : List Text) :
    (keysAfter earlier fields).length = fields.length := by
  induction fields generalizing earlier with
  | nil => rfl
  | cons field fields ih => simp [ih]

/-- The ordinals of a field go on behind those it had before, without a gap. -/
lemma mem_numbered_iff {earlier fields : List Text} {field : Text} {n : Nat} :
    (field, n) ∈ numbered earlier fields
      ↔ earlier.count field < n ∧ n ≤ earlier.count field + fields.count field := by
  induction fields generalizing earlier with
  | nil =>
      simp only [numbered, List.not_mem_nil, List.count_nil, false_iff]
      omega
  | cons head fields ih =>
      rw [numbered, List.mem_cons, ih, Prod.mk.injEq, List.count_append]
      by_cases h : field = head
      · subst h
        simp only [true_and, List.count_cons_self, List.count_nil]
        omega
      · simp only [h, false_and, false_or, List.count_cons_of_ne (Ne.symm h), List.count_nil]
        omega

/-- No field gets an ordinal twice. -/
lemma nodup_numbered (earlier fields : List Text) : (numbered earlier fields).Nodup := by
  induction fields generalizing earlier with
  | nil => exact List.nodup_nil
  | cons field fields ih =>
      refine List.nodup_cons.2 ⟨fun h => ?_, ih _⟩
      rw [mem_numbered_iff, List.count_append, List.count_singleton_self] at h
      omega

/-! ### Which fields share a key -/

/-- Two fields that share a key are the same with the same ordinal, or one of them is the other
with a numeral behind it. The longer one's numeral and ordinal then make the shorter one's
ordinal. -/
theorem append_numeral_eq_cases {f g : Text} {m n : Nat} (hm : 0 < m) (hn : 0 < n)
    (h : f ++ Text.numeral m = g ++ Text.numeral n) :
    (f = g ∧ m = n)
      ∨ (∃ k, 0 < k ∧ g = f ++ Text.numeral k
          ∧ Text.numeral m = Text.numeral k ++ Text.numeral n)
      ∨ ∃ k, 0 < k ∧ f = g ++ Text.numeral k
          ∧ Text.numeral n = Text.numeral k ++ Text.numeral m := by
  rcases List.append_eq_append_iff.1 h with ⟨d, rfl, hd⟩ | ⟨d, rfl, hd⟩
  · rcases eq_or_ne d [] with rfl | hne
    · exact Or.inl ⟨by simp, Text.numeral_injective (by simpa using hd)⟩
    · obtain ⟨k, hk, rfl⟩ := Text.exists_eq_numeral_of_append hm hd hne
      exact Or.inr (Or.inl ⟨k, hk, rfl, hd⟩)
  · rcases eq_or_ne d [] with rfl | hne
    · exact Or.inl ⟨by simp, Text.numeral_injective (by simpa using hd.symm)⟩
    · obtain ⟨k, hk, rfl⟩ := Text.exists_eq_numeral_of_append hn hd hne
      exact Or.inr (Or.inr ⟨k, hk, rfl, hd⟩)

/-- No field has more than `10 * k` values while the field with the numeral of `k` behind it has
any: its value with the ordinal `10 * k + 1` would get the first key of the other field. -/
def Separate (fields : List Text) : Prop :=
  ∀ field k, 0 < k → field ++ Text.numeral k ∈ fields → fields.count field ≤ 10 * k

/-- Fields of which none is another one with digits behind it are separate. -/
lemma Separate.of_forall_ne {fields : List Text}
    (h : ∀ f ∈ fields, ∀ g ∈ fields, ∀ d : Text, d ≠ [] → (∀ c ∈ d, c.isDigit) → g ≠ f ++ d) :
    Separate fields := by
  intro field k _ hmem
  have hzero : fields.count field = 0 := List.count_eq_zero.2 fun hfield =>
    h field hfield _ hmem (Text.numeral k) (Text.numeral_ne_nil k)
      (fun _ => Text.isDigit_of_mem_numeral) rfl
  omega

/-- If the fields are separate, no key of one field is a key of another field. -/
lemma Separate.not_crossing {fields : List Text} (h : Separate fields) {field : Text} {k m n : Nat}
    (hk : 0 < k) (hm : (field, m) ∈ numbered [] fields)
    (hn : (field ++ Text.numeral k, n) ∈ numbered [] fields) :
    Text.numeral m ≠ Text.numeral k ++ Text.numeral n := by
  intro heq
  rw [mem_numbered_iff, List.count_nil] at hm hn
  have hmem : field ++ Text.numeral k ∈ fields := List.count_pos_iff.1 (by omega)
  have hcount := h field k hk hmem
  have hlt := Text.ten_mul_lt_of_append hn.1 heq
  omega

/-- The keys of fields are distinct exactly if the fields are separate. -/
theorem nodup_keysAfter_iff (fields : List Text) :
    (keysAfter [] fields).Nodup ↔ Separate fields := by
  rw [keysAfter, List.nodup_map_iff_inj_on (nodup_numbered [] fields)]
  refine ⟨fun hinj field k hk hmem => ?_, fun h => ?_⟩
  · -- the field's value with the ordinal `10 * k + 1` has the other field's first key
    by_contra hgt
    have hfirst : (field ++ Text.numeral k, 1) ∈ numbered [] fields := by
      have hpos := List.count_pos_iff.2 hmem
      rw [mem_numbered_iff, List.count_nil]
      omega
    have hlate : (field, 10 * k + 1) ∈ numbered [] fields := by
      rw [mem_numbered_iff, List.count_nil]
      omega
    have hkey : field ++ Text.numeral (10 * k + 1)
        = (field ++ Text.numeral k) ++ Text.numeral 1 := by
      rw [Text.numeral_ten_mul_add hk (by omega), List.append_assoc]
    have hpair := hinj _ hlate _ hfirst hkey
    have hordinal := congrArg Prod.snd hpair
    simp only at hordinal
    omega
  · rintro ⟨f, m⟩ hm ⟨g, n⟩ hn heq
    have hmpos : 0 < m := by have := mem_numbered_iff.1 hm; omega
    have hnpos : 0 < n := by have := mem_numbered_iff.1 hn; omega
    rcases append_numeral_eq_cases hmpos hnpos heq with ⟨rfl, rfl⟩ | ⟨k, hk, rfl, hcut⟩
        | ⟨k, hk, rfl, hcut⟩
    · rfl
    · exact absurd hcut (h.not_crossing hk hm hn)
    · exact absurd hcut (h.not_crossing hk hn hm)

/-! ### Putting values aside -/

namespace Placeholders

/-- Values with the fields they are put aside for, where every field is a text. -/
def ofTextFields (calls : List (Text × Value)) : List (Value × Value) :=
  calls.map fun (field, value) => (.text field, value)

/-- Values have been put aside for just these fields, in whatever order. -/
def HasSeen (p : Placeholders) (earlier : List Text) : Prop :=
  ∀ field, p.nextOrdinal (.text field) = earlier.count field + 1

lemma hasSeen_empty : ({} : Placeholders).HasSeen [] := fun _ => rfl

/-- The placeholders after a value has been put aside for a field that is a text. -/
def addText (p : Placeholders) (field : Text) (value : Value) : Placeholders where
  counters := p.counters.put (.text field) (p.nextOrdinal (.text field))
  values := p.values.put (field ++ Text.numeral (p.nextOrdinal (.text field))) value

/-- A text can always be counted and written, so its value is put aside. -/
lemma add_text (p : Placeholders) (field : Text) (value : Value) :
    p.add (.text field) value
      = (.ok (field ++ Text.numeral (p.nextOrdinal (.text field))), p.addText field value) := rfl

/-- One more value counts for its own field and for no other. -/
lemma HasSeen.addText {p : Placeholders} {earlier : List Text} (h : p.HasSeen earlier)
    (field : Text) (value : Value) : (p.addText field value).HasSeen (earlier ++ [field]) := by
  intro g
  rw [nextOrdinal, Placeholders.addText, Table.get?_put, List.count_append]
  by_cases hg : g = field
  · subst hg
    simp [h g]
  · have hne : ¬((Key.text g == Key.text field) = true) := by simpa using hg
    have hother := h g
    rw [nextOrdinal] at hother
    rw [if_neg hne, hother]
    simp [Ne.symm hg]

variable {p : Placeholders} {earlier : List Text}

lemma addAll_ofTextFields_cons (p : Placeholders) (field : Text) (value : Value)
    (calls : List (Text × Value)) :
    p.addAll (ofTextFields ((field, value) :: calls))
      = (p.addText field value).addAll (ofTextFields calls) := rfl

/-- Each value is put aside under its field's text with its ordinal behind it, after those in front
of it. -/
theorem addEach_ofTextFields (h : p.HasSeen earlier) (calls : List (Text × Value)) :
    p.addEach (ofTextFields calls)
      = (keysAfter earlier (calls.map Prod.fst)).mapIdx fun place key =>
          (.ok key, p.addAll (ofTextFields (calls.take (place + 1)))) := by
  induction calls generalizing p earlier with
  | nil => rfl
  | cons call calls ih =>
      obtain ⟨field, value⟩ := call
      have hrest := ih (h.addText field value)
      have hadd : p.add (.text field) value
          = (.ok (field ++ Text.numeral (earlier.count field + 1)), p.addText field value) := by
        rw [add_text, h field]
      rw [List.map_cons, keysAfter_cons, List.mapIdx_cons]
      simp only [ofTextFields, List.map_cons, addEach, hadd] at hrest ⊢
      rw [hrest]
      rfl

/-- The keys that are returned, whatever is kept under them. -/
lemma map_fst_addEach (h : p.HasSeen earlier) (calls : List (Text × Value)) :
    (p.addEach (ofTextFields calls)).map Prod.fst
      = (keysAfter earlier (calls.map Prod.fst)).map .ok := by
  rw [addEach_ofTextFields h]
  refine List.ext_getElem? fun place => ?_
  simp [Function.comp_def]

lemma HasSeen.addAll (h : p.HasSeen earlier) (calls : List (Text × Value)) :
    (p.addAll (ofTextFields calls)).HasSeen (earlier ++ calls.map Prod.fst) := by
  induction calls generalizing p earlier with
  | nil => simpa [ofTextFields, Placeholders.addAll] using h
  | cons call calls ih =>
      obtain ⟨field, value⟩ := call
      rw [addAll_ofTextFields_cons, List.map_cons, ← List.singleton_append, ← List.append_assoc]
      exact ih (h.addText field value)

/-- The keys that calls get, each with the value of its call, where other fields have had values
before. -/
def entriesAfter (earlier : List Text) (calls : List (Text × Value)) : Table Text Value :=
  (keysAfter earlier (calls.map Prod.fst)).zip (calls.map Prod.snd)

lemma entriesAfter_cons (earlier : List Text) (field : Text) (value : Value)
    (calls : List (Text × Value)) :
    entriesAfter earlier ((field, value) :: calls)
      = (field ++ Text.numeral (earlier.count field + 1), value)
        :: entriesAfter (earlier ++ [field]) calls := rfl

lemma entriesAfter_append (earlier : List Text) (calls more : List (Text × Value)) :
    entriesAfter earlier (calls ++ more)
      = entriesAfter earlier calls ++ entriesAfter (earlier ++ calls.map Prod.fst) more := by
  rw [entriesAfter, List.map_append, List.map_append, keysAfter_append,
    List.zip_append (by simp)]
  rfl

@[simp]
lemma keys_entriesAfter (earlier : List Text) (calls : List (Text × Value)) :
    (entriesAfter earlier calls).keys = keysAfter earlier (calls.map Prod.fst) :=
  List.map_fst_zip (by simp)

lemma map_snd_entriesAfter (earlier : List Text) (calls : List (Text × Value)) :
    (entriesAfter earlier calls).map Prod.snd = calls.map Prod.snd :=
  List.map_snd_zip (by simp)

/-- The table is filled under the keys that are returned. -/
theorem values_addAll (h : p.HasSeen earlier) (calls : List (Text × Value)) :
    (p.addAll (ofTextFields calls)).values = p.values.putAll (entriesAfter earlier calls) := by
  induction calls generalizing p earlier with
  | nil => rfl
  | cons call calls ih =>
      obtain ⟨field, value⟩ := call
      rw [addAll_ofTextFields_cons, ih (h.addText field value), entriesAfter_cons,
        Placeholders.addText, h field]
      rfl

/-- The placeholders after values have been put aside for fields that are texts. -/
def ofCalls (calls : List (Text × Value)) : Placeholders :=
  ({} : Placeholders).addAll (ofTextFields calls)

lemma hasSeen_ofCalls (calls : List (Text × Value)) :
    (ofCalls calls).HasSeen (calls.map Prod.fst) := hasSeen_empty.addAll calls

lemma ofCalls_append (calls more : List (Text × Value)) :
    ofCalls (calls ++ more) = (ofCalls calls).addAll (ofTextFields more) := by
  rw [ofCalls, ofTextFields, List.map_append, addAll_append]
  rfl

lemma values_ofCalls (calls : List (Text × Value)) :
    (ofCalls calls).values = Table.ofList (entriesAfter [] calls) :=
  values_addAll hasSeen_empty calls

/-- As long as the keys are distinct, every value stays under the key it was given. -/
lemma values_ofCalls_of_nodup {calls : List (Text × Value)}
    (h : (keysAfter [] (calls.map Prod.fst)).Nodup) :
    (ofCalls calls).values = entriesAfter [] calls := by
  rw [values_ofCalls, Table.ofList]
  exact Table.putAll_eq_append (t := []) (by rwa [List.nil_append, keys_entriesAfter])

/-- As long as the keys of some calls are distinct, every value is found under the key it was given,
whatever was put aside before. -/
lemma get?_ofCalls_of_nodup {before calls : List (Text × Value)}
    (h : (keysAfter (before.map Prod.fst) (calls.map Prod.fst)).Nodup) {entry : Text × Value}
    (hentry : entry ∈ entriesAfter (before.map Prod.fst) calls) :
    (ofCalls (before ++ calls)).values.get? entry.1 = some entry.2 := by
  rw [ofCalls_append, values_addAll (hasSeen_ofCalls before)]
  exact Table.get?_putAll_of_mem (by rwa [keys_entriesAfter]) hentry

/-! ### When no value is lost -/

/-- **Distinct keys**: values put aside for fields that are texts get distinct keys exactly if the
fields are separate, and exactly then as many values are kept as were put aside. In that case each
key leads to the value it was given for. -/
theorem keys_nodup_iff_separate (calls : List (Text × Value)) :
    ∃ keys : List Text,
      (({} : Placeholders).addEach (ofTextFields calls)).map Prod.fst = keys.map .ok
        ∧ (keys.Nodup ↔ Separate (calls.map Prod.fst))
        ∧ ((ofCalls calls).size = calls.length ↔ Separate (calls.map Prod.fst))
        ∧ (Separate (calls.map Prod.fst) →
            keys.map (ofCalls calls).values.get? = calls.map fun call => some call.2) := by
  have hkeys := nodup_keysAfter_iff (calls.map Prod.fst)
  refine ⟨keysAfter [] (calls.map Prod.fst), map_fst_addEach hasSeen_empty calls, hkeys, ?_, ?_⟩
  · have hsize := Table.length_putAll_eq_iff (t := []) List.nodup_nil (entriesAfter [] calls)
    rw [List.nil_append, keys_entriesAfter, hkeys] at hsize
    have hlength : (entriesAfter [] calls).length = calls.length := by simp [entriesAfter]
    rw [← hsize, hlength, size, values_ofCalls]
    rfl
  · intro hseparate
    have hget : ∀ entry ∈ entriesAfter [] calls,
        (ofCalls calls).values.get? entry.1 = some entry.2 :=
      fun entry => @get?_ofCalls_of_nodup [] calls (hkeys.2 hseparate) entry
    calc (keysAfter [] (calls.map Prod.fst)).map (ofCalls calls).values.get?
        = (entriesAfter [] calls).map fun entry => (ofCalls calls).values.get? entry.1 := by
          rw [← keys_entriesAfter, Table.keys, List.map_map]
          rfl
      _ = (entriesAfter [] calls).map fun entry => some entry.2 := List.map_congr_left hget
      _ = ((entriesAfter [] calls).map Prod.snd).map some := by rw [List.map_map]; rfl
      _ = calls.map fun call => some call.2 := by
          rw [map_snd_entriesAfter, List.map_map]
          rfl

/-- The eleventh value of `a` takes the place of the first value of `a1`: both have the key
`a11`. -/
theorem addEach_shares_key :
    let calls := (['a', '1'], .text ['x']) :: List.replicate 11 (['a'], .text ['y'])
    let results := (({} : Placeholders).addEach (ofTextFields calls)).map Prod.fst
    let kept := ofCalls calls
    results[0]? = some (.ok ['a', '1', '1']) ∧ results[11]? = some (.ok ['a', '1', '1'])
      ∧ kept.size = 11 ∧ kept.values.get? ['a', '1', '1'] = some (.text ['y']) :=
  ⟨rfl, rfl, rfl, rfl⟩

end Placeholders

end RecordQuery
