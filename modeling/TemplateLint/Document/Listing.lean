import TemplateLint.Disk.Basic
import TemplateLint.Document.File
import TemplateLint.Glob

/-! # Listing documents

The documents of a project are those below given paths, or below its root, that are not left out. A
pattern without wildcards leaves out what lies below a path; any other is a glob for the path or the
part of it below the root. The list is in order and free of repetition by components.
-/

namespace TemplateLint

/-- What a listing leaves out. -/
structure Exclusions where
  below : List Path := []
  globs : List Glob := []

/-- A pattern that cannot be read. -/
structure ExclusionError where
  pattern : String
  error : Glob.Error
deriving DecidableEq, Repr

/-- The wording of an exclusion error. -/
def ExclusionError.message (error : ExclusionError) : String :=
  "Invalid ignore pattern: \"" ++ error.pattern ++ "\": " ++ error.error.message

namespace Exclusions

/-- Whether a pattern has wildcards. -/
def isGlob (pattern : String) : Bool :=
  pattern.toList.any fun c => c == '*' || c == '?'

/-- Take one more pattern. -/
def add (root : Path) (exclusions : Exclusions) (pattern : String) :
    Except ExclusionError Exclusions :=
  if isGlob pattern then
    match Glob.parse pattern with
    | .ok glob => .ok { exclusions with globs := exclusions.globs ++ [glob] }
    | .error error => .error ⟨pattern, error⟩
  else .ok { exclusions with below := exclusions.below ++ [root.join ⟨pattern⟩] }

/-- The exclusions that patterns name. -/
def ofPatterns (root : Path) (patterns : List String) : Except ExclusionError Exclusions :=
  patterns.foldlM (add root) {}

/-- Whether a path is left out. -/
def excludes (exclusions : Exclusions) (root path : Path) : Bool :=
  exclusions.below.any path.startsWith ||
    exclusions.globs.any fun glob =>
      glob.accepts (path.relativeTo root).spelling || glob.accepts path.spelling

end Exclusions

/-- The documents found, and how many paths could not be looked at. -/
structure Listing where
  files : List Path
  skipped : Nat
deriving DecidableEq, Repr

namespace Listing

/-- Whether an entry is a directory that cannot be listed. -/
def isClosed : Entry → Bool
  | .directory .none => true
  | _ => false

/-- Whether an entry is a file. -/
def isFile : Entry → Bool
  | .file _ _ => true
  | .directory _ => false

/-- The path of an entry below another path. -/
def pathBelow (top : Path) (below : Route) : Path := below.foldl Path.child top

/-- What one path leads to, before it is put in order. -/
def under (disk : Disk) (keep : Path → Bool) (top : Path) : Listing :=
  match disk.find top with
  | .ok (.present route _) =>
    let met := disk.walk route
    { files := met.filterMap fun (below, entry) =>
        let path := pathBelow top below
        if isFile entry && path.isDocument && keep path then some path else none
      skipped := met.countP fun (_, entry) => isClosed entry }
  | _ => ⟨[], 1⟩

/-- Leave out the paths that have the same components as the one before them. -/
def dropRepeated : List Path → List Path
  | [] => []
  | path :: rest =>
    match dropRepeated rest with
    | [] => [path]
    | next :: others => if path.same next then path :: others else path :: next :: others

/-- Paths in order, of equal ones the first. -/
def inOrder (paths : List Path) : List Path :=
  dropRepeated (paths.mergeSort Path.le)

/-- The paths to look at: those given, below the root, or the root itself. -/
def tops (root : Path) (paths : List Path) : List Path :=
  if paths.isEmpty then [root] else paths.map root.join

/-- List the documents of a project. -/
def scan (disk : Disk) (root : Path) (paths : List Path) (patterns : List String) :
    Except ExclusionError Listing := do
  let exclusions ← Exclusions.ofPatterns root patterns
  let found := (tops root paths).map (under disk fun path => !exclusions.excludes root path)
  let skipped := found.foldl (fun total listing => total + listing.skipped) 0
  return ⟨inOrder (found.flatMap files), skipped⟩

end Listing

end TemplateLint
