import RecordQuery.Request.Settings

/-!
The relations that a selection of field paths implies.

* A path leads along relations only if it begins with the marker. Its other segments are the
  relations to follow, one inside the other, but the last of them is a plain field
  (`Settings.pathRelations`).
* Markers inside a path are skipped. The last segment is a relation as well if its name always is
  one, or if a marker stands behind it.
* `Settings.relations` lists the relations of all paths, each where it is met first.
-/

namespace RecordQuery

namespace Settings

/-- Goes on from a relation, given by the segments that lead to it, along the segments that remain,
and lists the relations met. -/
def follow (s : Settings) (trail : List Text) : List Text → List Text
  | [] => []
  | segment :: rest =>
    if segment = s.marker then s.follow trail rest
    else
      let trail := trail ++ [segment]
      if rest ≠ [] ∨ segment ∈ s.nested then Text.joined ['.'] trail :: s.follow trail rest
      else s.follow trail rest

/-- The relations that a path leads along, from the outermost inwards. -/
def pathRelations (s : Settings) (path : Text) : List Text :=
  match Text.segments '.' path with
  | [] => []
  | first :: rest => if first = s.marker then s.follow [] rest else []

/-- The relations that the paths lead along, each once. -/
def relations (s : Settings) (paths : List Text) : List Text :=
  (paths.flatMap s.pathRelations).eraseDups

end Settings

end RecordQuery
