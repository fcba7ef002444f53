import Mathlib.Data.List.Induction
import Mathlib.Data.List.Nodup
import RecordQuery.Proofs.Text.Joined
import RecordQuery.Proofs.Text.Repetition
import RecordQuery.Request.Basic

/-!
The relations of paths in closed form, and their order.

* `Settings.outline` is the closed form for one path: its names are its segments without the
  markers, and its relations are the trails of these names, all of them or all but the longest.
  `Settings.pathRelations_eq_outline` proves it, by an induction along the segments that starts
  behind any trail (`Settings.follow_eq`).
* `Settings.relationsOf_eq_outline`: the relations of several paths are those of their outlines,
  each where it stands first (`Text.firstOccurrences`).
* `Settings.ParentsFirst` holds of a list in which every relation stands behind those that lead to
  it. Trails are listed that way, and the lists may be put together and rid of repetitions.
* `Settings.relations_tree`: so the relations of paths make a tree, and further paths only add to
  it.
-/

namespace RecordQuery

/-! ### The relations of a path -/

namespace Settings

/-- The segments behind the first one, without the markers. -/
def names (s : Settings) (segments : List Text) : List Text :=
  segments.tail.filter (· ≠ s.marker)

/-- The last segment is that of a plain field: it is neither a marker nor always a relation. -/
def EndsInField (s : Settings) (segments : List Text) : Prop :=
  1 < segments.length ∧ ∃ last ∈ segments.getLast?, last ≠ s.marker ∧ last ∉ s.nested

instance (s : Settings) (segments : List Text) : Decidable (s.EndsInField segments) :=
  inferInstanceAs (Decidable (_ ∧ ∃ last ∈ segments.getLast?, _))

/-- How many of the names of a path are relations. -/
def depth (s : Settings) (segments : List Text) : Nat :=
  if s.EndsInField segments then (s.names segments).length - 1 else (s.names segments).length

/-- The first names of a list, joined: first one of them, then two, and so on up to a number. -/
def trails (names : List Text) (depth : Nat) : List Text :=
  (List.range depth).map fun k => Text.joined ['.'] (names.take (k + 1))

/-- The relations of a path in closed form: the trails of its names as far as they are relations, if
the path begins with the marker. -/
def outline (s : Settings) (path : Text) : List Text :=
  let segments := Text.segments '.' path
  if segments.head? = some s.marker then trails (s.names segments) (s.depth segments) else []

lemma trails_succ (names : List Text) (depth : Nat) :
    trails names (depth + 1)
      = trails names depth ++ [Text.joined ['.'] (names.take (depth + 1))] := by
  rw [trails, List.range_succ, List.map_append]
  rfl

/-- Trails that begin with a name go on behind it. -/
lemma trails_from_succ (trail names : List Text) (name : Text) (depth : Nat) :
    ((List.range (depth + 1)).map fun k => Text.joined ['.'] (trail ++ (name :: names).take (k + 1)))
      = Text.joined ['.'] (trail ++ [name])
        :: (List.range depth).map fun k =>
            Text.joined ['.'] (trail ++ [name] ++ names.take (k + 1)) := by
  rw [List.range_succ_eq_map, List.map_cons, List.map_map]
  refine congrArg₂ List.cons (by simp) (List.map_congr_left fun k _ => ?_)
  simp

variable {s : Settings} {first segment : Text} {rest : List Text}

lemma names_cons (s : Settings) (first : Text) (rest : List Text) :
    s.names (first :: rest) = rest.filter (· ≠ s.marker) := rfl

/-- Behind the first segment, only the last one decides. -/
lemma endsInField_cons :
    s.EndsInField (first :: rest)
      ↔ ∃ last ∈ rest.getLast?, last ≠ s.marker ∧ last ∉ s.nested := by
  cases rest with
  | nil => simp [EndsInField]
  | cons next rest => simp [EndsInField, List.getLast?_cons_cons]

/-- A path that ends in a field has a name. -/
lemma names_ne_nil (h : s.EndsInField (first :: rest)) : s.names (first :: rest) ≠ [] := by
  obtain ⟨last, hlast, hmarker, -⟩ := endsInField_cons.1 h
  have hmem : last ∈ s.names (first :: rest) :=
    List.mem_filter.2 ⟨List.mem_of_getLast? hlast, decide_eq_true hmarker⟩
  exact List.ne_nil_of_mem hmem

/-- A marker behind the first segment does not count. -/
lemma depth_marker : s.depth (first :: s.marker :: rest) = s.depth (first :: rest) := by
  have hnames : s.names (first :: s.marker :: rest) = s.names (first :: rest) := by
    simp [names_cons]
  have hfield : s.EndsInField (first :: s.marker :: rest) ↔ s.EndsInField (first :: rest) := by
    rw [endsInField_cons, endsInField_cons]
    cases rest with
    | nil => simp
    | cons next rest => rw [List.getLast?_cons_cons]
  simp only [depth, hnames, hfield]

/-- A name counts if it is always a relation or not the last segment. -/
lemma depth_relation (h : segment ≠ s.marker) (hrel : rest ≠ [] ∨ segment ∈ s.nested) :
    s.depth (first :: segment :: rest) = s.depth (first :: rest) + 1 := by
  have hnames : s.names (first :: segment :: rest) = segment :: s.names (first :: rest) := by
    simp [names_cons, h]
  have hfield : s.EndsInField (first :: segment :: rest) ↔ s.EndsInField (first :: rest) := by
    rw [endsInField_cons, endsInField_cons]
    cases rest with
    | nil => simpa [h] using hrel
    | cons next rest => rw [List.getLast?_cons_cons]
  simp only [depth, hnames, hfield, List.length_cons]
  split
  case isTrue hlast =>
    have hpos := List.length_pos_iff.2 (names_ne_nil hlast)
    omega
  case isFalse => rfl

/-- A last segment that is a name and not always a relation is a field. -/
lemma depth_field (h : segment ≠ s.marker) (hrel : segment ∉ s.nested) :
    s.depth [first, segment] = 0 := by
  have hfield : s.EndsInField [first, segment] := endsInField_cons.2 ⟨segment, rfl, h, hrel⟩
  simp [depth, hfield, names_cons, h]

/-- Following segments lists the trails of the names among them. -/
lemma follow_eq (s : Settings) (first : Text) (trail segments : List Text) :
    s.follow trail segments = (List.range (s.depth (first :: segments))).map fun k =>
      Text.joined ['.'] (trail ++ (s.names (first :: segments)).take (k + 1)) := by
  induction segments generalizing trail with
  | nil =>
      have hfield : ¬s.EndsInField [first] := by simp [endsInField_cons]
      simp [follow, depth, hfield, names_cons]
  | cons segment rest ih =>
      rw [follow]
      split
      case isTrue h =>
        subst h
        rw [depth_marker, ih trail]
        simp [names_cons]
      case isFalse h =>
        have hnames : s.names (first :: segment :: rest) = segment :: s.names (first :: rest) := by
          simp [names_cons, h]
        rw [hnames]
        split
        case isTrue hrel =>
          rw [depth_relation h hrel, trails_from_succ]
          exact congrArg (_ :: ·) (ih _)
        case isFalse hrel =>
          -- the segment is the last one, and nothing is left to follow
          obtain ⟨rfl, hnested⟩ : rest = [] ∧ segment ∉ s.nested := by
            simpa [not_or] using hrel
          rw [depth_field h hnested]
          rfl

/-- **Relations of a path**: they are the trails of its names. -/
theorem pathRelations_eq_outline (s : Settings) (path : Text) :
    s.pathRelations path = s.outline path := by
  rw [pathRelations, outline]
  cases hsplit : Text.segments '.' path with
  | nil => exact absurd hsplit (Text.segments_ne_nil '.' path)
  | cons first rest =>
      simp only [List.head?_cons, Option.some.injEq]
      split
      case isTrue => exact s.follow_eq first [] rest
      case isFalse => rfl

end Settings

/-! ### The relations of several paths -/

namespace Settings

variable {s : Settings}

/-- Only the first segment, the names and the last segment of a path matter. -/
lemma outline_congr {path path' first : Text} {rest rest' : List Text}
    (h : Text.segments '.' path = first :: rest) (h' : Text.segments '.' path' = first :: rest')
    (hnames : rest.filter (· ≠ s.marker) = rest'.filter (· ≠ s.marker))
    (hlast : rest.getLast? = rest'.getLast?) : s.outline path = s.outline path' := by
  have hfield : s.EndsInField (first :: rest) ↔ s.EndsInField (first :: rest') := by
    rw [endsInField_cons, endsInField_cons, hlast]
  simp only [outline, h, h', depth, names_cons, hnames, hfield, List.head?_cons]

/-- A marker that is no segment leads nowhere. -/
lemma outline_of_mem (h : '.' ∈ s.marker) (path : Text) : s.outline path = [] := by
  rw [outline, if_neg]
  intro hhead
  exact Text.not_mem_of_mem_segments (List.mem_of_mem_head? hhead) h

/-- Markers inside a path do not matter. -/
theorem outline_insert_marker (s : Settings) (first last : Text) (front back : List Text) :
    s.outline (Text.joined ['.'] (first :: front ++ s.marker :: back ++ [last]))
      = s.outline (Text.joined ['.'] (first :: front ++ back ++ [last])) := by
  by_cases hdot : '.' ∈ s.marker
  · rw [outline_of_mem hdot, outline_of_mem hdot]
  · obtain ⟨head, tail, hfirst⟩ := List.exists_cons_of_ne_nil (Text.segments_ne_nil '.' first)
    have hmarker : Text.segments '.' s.marker = [s.marker] := List.splitOn_eq_singleton hdot
    have hlast := Text.segments_ne_nil '.' last
    have hinserted :
        Text.segments '.' (Text.joined ['.'] (first :: front ++ s.marker :: back ++ [last]))
        = head :: (tail ++ front.flatMap (Text.segments '.')
            ++ s.marker :: back.flatMap (Text.segments '.') ++ Text.segments '.' last) := by
      rw [Text.segments_joined (by simp)]
      simp [hfirst, hmarker]
    have hplain : Text.segments '.' (Text.joined ['.'] (first :: front ++ back ++ [last]))
        = head :: (tail ++ front.flatMap (Text.segments '.')
            ++ back.flatMap (Text.segments '.') ++ Text.segments '.' last) := by
      rw [Text.segments_joined (by simp)]
      simp [hfirst]
    refine outline_congr hinserted hplain (by simp) ?_
    rw [List.getLast?_append_of_ne_nil _ hlast, List.getLast?_append_of_ne_nil _ hlast]

/-- All names are relations if a marker stands behind them. -/
lemma joined_mem_outline {path name : Text} {inside : List Text}
    (h : Text.segments '.' path = s.marker :: inside ++ [name, s.marker]) (hname : name ≠ s.marker) :
    Text.joined ['.'] (inside.filter (· ≠ s.marker) ++ [name]) ∈ s.outline path := by
  have hnames : s.names (s.marker :: inside ++ [name, s.marker])
      = inside.filter (· ≠ s.marker) ++ [name] := by simp [names, hname]
  have hfield : ¬s.EndsInField (s.marker :: inside ++ [name, s.marker]) := by
    rw [List.cons_append, endsInField_cons]
    simp
  have hdepth : s.depth (s.marker :: inside ++ [name, s.marker])
      = (inside.filter (· ≠ s.marker)).length + 1 := by
    rw [depth, if_neg hfield, hnames, List.length_append, List.length_singleton]
  have houtline : s.outline path = trails (inside.filter (· ≠ s.marker) ++ [name])
      ((inside.filter (· ≠ s.marker)).length + 1) := by
    rw [outline, h]
    simp only [hnames, hdepth]
    exact if_pos rfl
  rw [houtline, trails_succ, List.take_of_length_le (by simp)]
  exact List.mem_append_right _ List.mem_cons_self

lemma relations_eq (s : Settings) (paths : List Text) :
    s.relations paths = (paths.flatMap s.outline).eraseDups := by
  rw [relations, funext s.pathRelations_eq_outline]

/-- **Relations in closed form**: the relations of paths are those of the outlines of the paths, each
where it stands first. Markers that are put inside a path or taken out of it do not matter, and a
marker at the end of a path makes the name in front of it a relation. -/
theorem relationsOf_eq_outline (s : Settings) (paths : List Text) :
    Request.relationsOf s (.list (paths.map .text)) = .ok (s.relations paths)
      ∧ s.relations paths = Text.firstOccurrences (paths.flatMap s.outline)
      ∧ (∀ before behind first last front back,
          s.relations (before
              ++ Text.joined ['.'] (first :: front ++ s.marker :: back ++ [last]) :: behind)
            = s.relations (before ++ Text.joined ['.'] (first :: front ++ back ++ [last]) :: behind))
      ∧ ∀ path ∈ paths, ∀ inside name,
          Text.segments '.' path = s.marker :: inside ++ [name, s.marker] → name ≠ s.marker →
          Text.joined ['.'] (inside.filter (· ≠ s.marker) ++ [name]) ∈ s.relations paths := by
  refine ⟨?_, ?_, fun before behind first last front back => ?_,
    fun path hpath inside name h hname => ?_⟩
  · have hdisplayed : (paths.map Value.text).mapM Value.displayed = Except.ok paths := by
      induction paths with
      | nil => rfl
      | cons path paths ih =>
          rw [List.map_cons, List.mapM_cons, ih]
          rfl
    rw [Request.relationsOf, Request.itemsOf, Value.items?]
    exact congrArg (·.map s.relations) hdisplayed
  · rw [relations_eq, Text.eraseDups_eq_firstOccurrences]
  · rw [relations_eq, relations_eq, List.flatMap_append, List.flatMap_append, List.flatMap_cons,
      List.flatMap_cons, outline_insert_marker]
  · rw [relations_eq, List.mem_eraseDups]
    exact List.mem_flatMap.2 ⟨path, hpath, joined_mem_outline h hname⟩

/-- Paths with a marker at the end, with a segment without a name in front of one that is always a
relation, and with a field at the end. -/
def samplePaths : List Text := ["expand.a.expand.b.expand", "expand..preferences", "expand.a.c"]

/-- The marker at the end of the first path makes its last name a relation. -/
theorem relationsOf_samplePaths :
    Request.relationsOf {} (.list (samplePaths.map .text)) = .ok ["a", "a.b", "", ".preferences"]
      ∧ ("a.b" : Text) ∈ ({} : Settings).relations samplePaths := by
  obtain ⟨hof, houtline, -, htrailing⟩ := relationsOf_eq_outline {} samplePaths
  refine ⟨?_, htrailing "expand.a.expand.b.expand" List.mem_cons_self ["a", "expand"] "b" ?_ ?_⟩
  · rw [hof, houtline]
    rfl
  · rfl
  · decide

/-! ### The order of relations -/

/-- Every relation stands behind those that lead to it. -/
def ParentsFirst (relations : List Text) : Prop :=
  ∀ before relation behind, relations = before ++ relation :: behind →
    ∀ k, 0 < k → k < (Text.segments '.' relation).length →
      Text.joined ['.'] ((Text.segments '.' relation).take k) ∈ before

namespace ParentsFirst

variable {relations more : List Text} {relation : Text}

lemma nil : ParentsFirst [] := by
  intro before relation behind h
  simp at h

/-- A relation may be added if those that lead to it are there. -/
lemma concat_iff :
    ParentsFirst (relations ++ [relation])
      ↔ ParentsFirst relations ∧ ∀ k, 0 < k → k < (Text.segments '.' relation).length →
          Text.joined ['.'] ((Text.segments '.' relation).take k) ∈ relations := by
  constructor
  · intro h
    refine ⟨fun before r behind heq => ?_, h relations relation [] rfl⟩
    exact h before r (behind ++ [relation]) (by simp [heq])
  · rintro ⟨h, hparents⟩ before r behind heq
    rcases List.eq_nil_or_concat behind with rfl | ⟨init, last, rfl⟩
    · obtain ⟨rfl, hr⟩ := List.append_inj' heq rfl
      obtain rfl : relation = r := by simpa using hr
      exact hparents
    · have hinit : relations = before ++ r :: init := by
        have hsplit : relations ++ [relation] = (before ++ r :: init) ++ [last] := by simpa using heq
        exact (List.append_inj' hsplit rfl).1
      exact h before r init hinit

lemma append (h : ParentsFirst relations) (hmore : ParentsFirst more) :
    ParentsFirst (relations ++ more) := by
  induction more using List.reverseRecOn with
  | nil => simpa using h
  | append_singleton more relation ih =>
      obtain ⟨hmore, hparents⟩ := concat_iff.1 hmore
      rw [← List.append_assoc, concat_iff]
      exact ⟨ih hmore, fun k hk hlt => List.mem_append_right _ (hparents k hk hlt)⟩

lemma eraseDups (h : ParentsFirst relations) : ParentsFirst relations.eraseDups := by
  induction relations using List.reverseRecOn with
  | nil => exact nil
  | append_singleton relations relation ih =>
      obtain ⟨hrelations, hparents⟩ := concat_iff.1 h
      rw [Text.eraseDups_concat]
      split
      case isTrue => simpa using ih hrelations
      case isFalse =>
        exact concat_iff.2 ⟨ih hrelations, fun k hk hlt => List.mem_eraseDups.2 (hparents k hk hlt)⟩

end ParentsFirst

lemma mem_trails {names : List Text} {depth : Nat} {relation : Text} :
    relation ∈ trails names depth
      ↔ ∃ k, 0 < k ∧ k ≤ depth ∧ relation = Text.joined ['.'] (names.take k) := by
  rw [trails, List.mem_map]
  constructor
  · rintro ⟨k, hk, rfl⟩
    exact ⟨k + 1, k.succ_pos, List.mem_range.1 hk, rfl⟩
  · rintro ⟨k, hpos, hk, rfl⟩
    exact ⟨k - 1, List.mem_range.2 (by omega), by rw [Nat.sub_add_cancel hpos]⟩

/-- The segments of a trail are the names on it. -/
lemma segments_trail {names : List Text} (h : ∀ name ∈ names, '.' ∉ name) {k : Nat} (hk : 0 < k)
    (hle : k ≤ names.length) :
    Text.segments '.' (Text.joined ['.'] (names.take k)) = names.take k := by
  refine Text.segments_joined_of_not_mem ?_ fun name hname => h name (List.mem_of_mem_take hname)
  rw [← List.length_pos_iff, List.length_take]
  omega

lemma parentsFirst_trails {names : List Text} (h : ∀ name ∈ names, '.' ∉ name) {depth : Nat}
    (hdepth : depth ≤ names.length) : ParentsFirst (trails names depth) := by
  induction depth with
  | zero => exact ParentsFirst.nil
  | succ depth ih =>
      rw [trails_succ, ParentsFirst.concat_iff, segments_trail h depth.succ_pos hdepth]
      refine ⟨ih (by omega), fun k hk hlt => ?_⟩
      rw [List.length_take] at hlt
      have hle : k ≤ depth := by omega
      exact mem_trails.2 ⟨k, hk, hle, by rw [List.take_take, Nat.min_eq_left (by omega)]⟩

lemma depth_le (s : Settings) (segments : List Text) :
    s.depth segments ≤ (s.names segments).length := by
  rw [depth]
  split <;> omega

lemma not_mem_of_mem_names {path name : Text} (h : name ∈ s.names (Text.segments '.' path)) :
    '.' ∉ name ∧ name ≠ s.marker := by
  obtain ⟨hmem, hmarker⟩ := List.mem_filter.1 h
  exact ⟨Text.not_mem_of_mem_segments (List.mem_of_mem_tail hmem), of_decide_eq_true hmarker⟩

lemma parentsFirst_outline (s : Settings) (path : Text) : ParentsFirst (s.outline path) := by
  rw [outline]
  split
  case isTrue =>
    exact parentsFirst_trails (fun _ hname => (not_mem_of_mem_names hname).1) (s.depth_le _)
  case isFalse => exact ParentsFirst.nil

/-- No relation leads along a marker. -/
lemma marker_not_mem_of_mem_outline {path relation : Text} (h : relation ∈ s.outline path) :
    s.marker ∉ Text.segments '.' relation := by
  rw [outline] at h
  split at h
  case isTrue =>
    obtain ⟨k, hpos, hk, rfl⟩ := mem_trails.1 h
    rw [segments_trail (fun _ hname => (not_mem_of_mem_names hname).1) hpos
      (Nat.le_trans hk (s.depth_le _))]
    exact fun hmem => (not_mem_of_mem_names (List.mem_of_mem_take hmem)).2 rfl
  case isFalse => exact absurd h List.not_mem_nil

lemma parentsFirst_relations (s : Settings) (paths : List Text) :
    ParentsFirst (s.relations paths) := by
  rw [relations_eq]
  refine ParentsFirst.eraseDups ?_
  induction paths with
  | nil => exact ParentsFirst.nil
  | cons path paths ih => exact (s.parentsFirst_outline path).append ih

/-- The relations of further paths come behind, as far as they are new. -/
lemma relations_append (s : Settings) (paths more : List Text) :
    s.relations (paths ++ more)
      = s.relations paths ++ (s.relations more).filter (· ∉ s.relations paths) := by
  rw [relations, List.flatMap_append]
  exact Text.eraseDups_append _ _

/-- **Relations make a tree**: no relation is listed twice, none of them leads along a marker, and
each stands behind those that lead to it. The relations of further paths come behind them, as far as
they are new. -/
theorem relations_tree (s : Settings) (paths : List Text) :
    (s.relations paths).Nodup
      ∧ (∀ relation ∈ s.relations paths, s.marker ∉ Text.segments '.' relation)
      ∧ (∀ (place : Nat) relation, (s.relations paths)[place]? = some relation →
          ∀ k, 0 < k → k < (Text.segments '.' relation).length →
            ∃ earlier < place, (s.relations paths)[earlier]?
              = some (Text.joined ['.'] ((Text.segments '.' relation).take k)))
      ∧ ∀ more, s.relations (paths ++ more)
          = s.relations paths ++ (s.relations more).filter (· ∉ s.relations paths) := by
  refine ⟨Text.nodup_eraseDups _, fun relation h => ?_, fun place relation h k hpos hk => ?_,
    s.relations_append paths⟩
  · rw [relations_eq, List.mem_eraseDups] at h
    obtain ⟨path, -, h⟩ := List.mem_flatMap.1 h
    exact marker_not_mem_of_mem_outline h
  · obtain ⟨hplace, hget⟩ := List.getElem?_eq_some_iff.1 h
    have hsplit : s.relations paths = (s.relations paths).take place
        ++ relation :: (s.relations paths).drop (place + 1) := by
      rw [← hget, List.getElem_cons_drop, List.take_append_drop]
    have hmem := s.parentsFirst_relations paths _ relation _ hsplit k hpos hk
    obtain ⟨earlier, hearlier⟩ := List.mem_iff_getElem?.1 hmem
    rw [List.getElem?_take] at hearlier
    split at hearlier
    case isTrue hlt => exact ⟨earlier, hlt, hearlier⟩
    case isFalse => cases hearlier

/-- The relation at the end of the sample stands behind the one without a name, which leads to it. -/
theorem relations_samplePaths :
    (({} : Settings).relations samplePaths)[3]? = some (".preferences" : Text)
      ∧ ∃ earlier < 3, (({} : Settings).relations samplePaths)[earlier]? = some ([] : Text) := by
  have hget : (({} : Settings).relations samplePaths)[3]? = some (".preferences" : Text) := rfl
  obtain ⟨-, -, hparents, -⟩ := relations_tree {} samplePaths
  exact ⟨hget, hparents 3 _ hget 1 (by decide) (by decide)⟩

end Settings

end RecordQuery
