import RecordQuery.Proofs.Request.Relation

/-!
Names added to those that are always relations.

* `Settings.EndsInName` says of a path that its last segment is one of the added names. Only such a
  path has a relation more, that of all its names (`Settings.mem_outline_addNested_iff`).
* `Settings.relations_congr`: the names that are always relations count as a set.
* `Settings.relations_addNested`: so names may be added in any order and in any number of steps, and
  they add the full trails of the paths that end in them.
-/

namespace RecordQuery

namespace Settings

variable {s t : Settings} {added segments : List Text} {path relation : Text}

/-- The last segment of a path is one of the given names, and no marker. -/
def EndsInName (s : Settings) (added segments : List Text) : Prop :=
  1 < segments.length ∧ ∃ last ∈ segments.getLast?, last ≠ s.marker ∧ last ∈ added

instance (s : Settings) (added segments : List Text) : Decidable (s.EndsInName added segments) :=
  inferInstanceAs (Decidable (_ ∧ ∃ last ∈ segments.getLast?, _))

/-- A path still ends in a field if the name of the field is not added. -/
lemma endsInField_addNested :
    (s.addNested added).EndsInField segments
      ↔ s.EndsInField segments ∧ ¬ s.EndsInName added segments := by
  constructor
  · rintro ⟨hlength, last, hlast, hmarker, hnested⟩
    obtain ⟨hold, hnew⟩ := not_or.1 (List.mem_append.not.1 hnested)
    refine ⟨⟨hlength, last, hlast, hmarker, hold⟩, ?_⟩
    rintro ⟨-, other, hother, -, hmem⟩
    obtain rfl := Option.mem_unique hlast hother
    exact hnew hmem
  · rintro ⟨⟨hlength, last, hlast, hmarker, hold⟩, hname⟩
    refine ⟨hlength, last, hlast, hmarker, List.mem_append.not.2 (not_or.2 ⟨hold, fun hmem => ?_⟩)⟩
    exact hname ⟨hlength, last, hlast, hmarker, hmem⟩

/-- A path that ends in a name has one. -/
lemma length_names_pos (h : s.EndsInName added segments) : 0 < (s.names segments).length := by
  obtain ⟨hlength, last, hlast, hmarker, -⟩ := h
  cases segments with
  | nil => cases hlast
  | cons first rest =>
      cases rest with
      | nil => simp at hlength
      | cons next rest =>
          rw [List.getLast?_cons_cons] at hlast
          have hmem : last ∈ s.names (first :: next :: rest) :=
            List.mem_filter.2 ⟨List.mem_of_getLast? hlast, decide_eq_true hmarker⟩
          exact List.length_pos_of_mem hmem

/-- A path that ends in an added name is a relation as a whole. -/
lemma depth_addNested : (s.addNested added).depth segments
    = if s.EndsInName added segments then (s.names segments).length else s.depth segments := by
  have hnames : (s.addNested added).names segments = s.names segments := rfl
  by_cases hname : s.EndsInName added segments
  · rw [depth, if_neg fun h => (endsInField_addNested.1 h).2 hname, if_pos hname, hnames]
  · simp only [depth, endsInField_addNested, hname, not_false_iff, and_true, if_false, hnames]

/-- At most one name of a path is no relation. -/
lemma length_names_le (s : Settings) (segments : List Text) :
    (s.names segments).length ≤ s.depth segments + 1 := by
  rw [depth]
  split <;> omega

lemma mem_outline_iff : relation ∈ s.outline path
    ↔ (Text.segments '.' path).head? = some s.marker
      ∧ ∃ k, 0 < k ∧ k ≤ s.depth (Text.segments '.' path)
        ∧ relation = Text.joined ['.'] ((s.names (Text.segments '.' path)).take k) := by
  rw [outline, ← mem_trails]
  split
  case isTrue h => exact (and_iff_right h).symm
  case isFalse h => exact iff_of_false List.not_mem_nil fun hmem => h hmem.1

/-- A path has a relation more if it ends in an added name: that of all its names. -/
lemma mem_outline_addNested_iff : relation ∈ (s.addNested added).outline path
    ↔ relation ∈ s.outline path
      ∨ (Text.segments '.' path).head? = some s.marker
        ∧ s.EndsInName added (Text.segments '.' path)
        ∧ relation = Text.joined ['.'] (s.names (Text.segments '.' path)) := by
  have hmarker : (s.addNested added).marker = s.marker := rfl
  have hnames : (s.addNested added).names (Text.segments '.' path)
      = s.names (Text.segments '.' path) := rfl
  rw [mem_outline_iff, mem_outline_iff, hmarker, hnames, ← and_or_left, depth_addNested]
  refine and_congr_right fun _ => ?_
  by_cases hname : s.EndsInName added (Text.segments '.' path)
  · rw [if_pos hname]
    constructor
    · rintro ⟨k, hpos, hk, rfl⟩
      have hdepth := s.length_names_le (Text.segments '.' path)
      rcases Nat.lt_or_eq_of_le hk with hlt | rfl
      · exact Or.inl ⟨k, hpos, by omega, rfl⟩
      · exact Or.inr ⟨hname, by rw [List.take_length]⟩
    · rintro (⟨k, hpos, hk, rfl⟩ | ⟨-, rfl⟩)
      · exact ⟨k, hpos, Nat.le_trans hk (s.depth_le _), rfl⟩
      · exact ⟨_, length_names_pos hname, Nat.le_refl _, by rw [List.take_length]⟩
  · rw [if_neg hname]
    simp only [hname, false_and, or_false]

lemma mem_relations_iff {paths : List Text} :
    relation ∈ s.relations paths ↔ ∃ path ∈ paths, relation ∈ s.outline path := by
  rw [relations_eq, List.mem_eraseDups, List.mem_flatMap]

/-- The names that are always relations count as a set. -/
theorem relations_congr (hmarker : s.marker = t.marker)
    (hnested : ∀ name, name ∈ s.nested ↔ name ∈ t.nested) (paths : List Text) :
    s.relations paths = t.relations paths := by
  have hnames (segments : List Text) : s.names segments = t.names segments := by
    rw [names, names, hmarker]
  have hfield (segments : List Text) : s.EndsInField segments ↔ t.EndsInField segments := by
    simp only [EndsInField, hmarker, hnested]
  have hdepth (segments : List Text) : s.depth segments = t.depth segments := by
    simp only [depth, hnames, hfield]
  have houtline (path : Text) : s.outline path = t.outline path := by
    simp only [outline, hmarker, hnames, hdepth]
  rw [relations_eq, relations_eq, funext houtline]

/-- Names that are added one batch after the other are added at once. -/
lemma foldl_addNested (s : Settings) (batches : List (List Text)) :
    batches.foldl addNested s = s.addNested batches.flatten := by
  induction batches generalizing s with
  | nil => simp [addNested]
  | cons batch batches ih => simp [ih, addNested]

/-- **Added names add what they name**: if names are added to those that are always relations, the
paths have the relations that they had, and besides them exactly the full trails of the paths that
begin with the marker and end in an added name. So more names never lose a relation, and names that
are added in several steps, in any order, make the same list as all of them at once. -/
theorem relations_addNested (s : Settings) (added paths : List Text) :
    (∀ relation, relation ∈ (s.addNested added).relations paths
      ↔ relation ∈ s.relations paths
        ∨ ∃ path ∈ paths, (Text.segments '.' path).head? = some s.marker
          ∧ s.EndsInName added (Text.segments '.' path)
          ∧ relation = Text.joined ['.'] (s.names (Text.segments '.' path)))
    ∧ (∀ t : Settings, t.marker = s.marker → s.nested ⊆ t.nested →
        s.relations paths ⊆ t.relations paths)
    ∧ ∀ batches : List (List Text),
        (∀ name, name ∈ added ↔ ∃ batch ∈ batches, name ∈ batch) →
        (batches.foldl addNested s).relations paths = (s.addNested added).relations paths := by
  have hmem (more : List Text) (relation : Text) :
      relation ∈ (s.addNested more).relations paths
        ↔ relation ∈ s.relations paths
          ∨ ∃ path ∈ paths, (Text.segments '.' path).head? = some s.marker
            ∧ s.EndsInName more (Text.segments '.' path)
            ∧ relation = Text.joined ['.'] (s.names (Text.segments '.' path)) := by
    simp only [mem_relations_iff, mem_outline_addNested_iff, and_or_left, exists_or]
  refine ⟨hmem added, fun t hmarker hnested relation hrelation => ?_, fun batches hbatches => ?_⟩
  · have hsame : t.relations paths = (s.addNested t.nested).relations paths := by
      have hmarker : t.marker = (s.addNested t.nested).marker := hmarker
      refine relations_congr hmarker (fun name => ?_) paths
      rw [addNested, List.mem_append]
      exact ⟨Or.inr, fun h => h.elim (fun h => hnested h) id⟩
    rw [hsame]
    exact (hmem t.nested relation).2 (Or.inl hrelation)
  · rw [foldl_addNested]
    have hmarker : (s.addNested batches.flatten).marker = (s.addNested added).marker := rfl
    refine relations_congr hmarker (fun name => ?_) paths
    simp only [addNested, List.mem_append, List.mem_flatten, hbatches]

/-- The name at the end of the last path is added, in two steps and with another name in front: the
whole path is a relation then, and nothing is lost. -/
theorem relations_addNested_samplePaths :
    ("a.c" : Text) ∉ ({} : Settings).relations samplePaths
      ∧ ("a.c" : Text) ∈ (({} : Settings).addNested ["c", "x"]).relations samplePaths
      ∧ ({} : Settings).relations samplePaths
        ⊆ (({} : Settings).addNested ["c", "x"]).relations samplePaths
      ∧ ((({} : Settings).addNested ["x"]).addNested ["c", "x"]).relations samplePaths
        = (({} : Settings).addNested ["c", "x"]).relations samplePaths := by
  obtain ⟨hmem, hmono, hbatches⟩ := relations_addNested {} ["c", "x"] samplePaths
  refine ⟨by decide, (hmem "a.c").2 (Or.inr ⟨"expand.a.c", ?_, rfl, by decide, rfl⟩),
    hmono _ rfl (List.subset_append_left _ _), hbatches [["x"], ["c", "x"]] fun name => ?_⟩
  · exact List.mem_of_getLast? rfl
  · simp only [List.mem_pair, List.mem_singleton, exists_eq_or_imp, exists_eq_left]
    exact ⟨Or.inr, fun h => h.elim Or.inr id⟩

end Settings

end RecordQuery
