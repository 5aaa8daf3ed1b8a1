import TemplateLint.Path

/-! # Translation keys

The key of a text is the path of its template, without the first directory and the extension, and
then the text itself as one segment. In writing, segments are joined by dots.
-/

namespace TemplateLint.Key

/-- The names among the components of a path. -/
def names (path : Path) : List String :=
  path.components.filterMap fun component =>
    match component with
    | .name text => some text
    | _ => none

/-- A list with a function applied to its last item. -/
def mapLast {α : Type} (f : α → α) : List α → List α
  | [] => []
  | [last] => [f last]
  | item :: rest => item :: mapLast f rest

/-- The segments of the key of a text in the template at a path within the project. -/
def segments (path : Path) (text : String) : List String :=
  (mapLast Path.stem (names path)).drop 1 ++ [text]

/-- A key as it is written. -/
def written (segments : List String) : String :=
  String.intercalate "." segments

end TemplateLint.Key
