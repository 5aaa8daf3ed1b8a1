import TemplateLint.Catalog.Key
import TemplateLint.Disk.Basic
import TemplateLint.Json.Printer
import TemplateLint.Json.Reader

/-! # Translation catalogs

A catalog is a JSON file of nested objects that hold the texts of one locale. A text is added under
the segments of its key; objects on the way are made as needed, and an entry that is there is never
changed. The file itself is never created.
-/

namespace TemplateLint

/-- What became of a key. -/
inductive Insertion where
  | added
  | existing
deriving DecidableEq, Repr

/-- Members with a text added under segments, or none if there is an entry already. The error is
the segment whose entry is in the way because it is no object. -/
def Members.insertAt (text : String) : List String → Members → Except String (Option Members)
  | [], _ => .ok none
  | [last], members =>
    match Members.get? members last with
    | some _ => .ok none
    | none => .ok (some (members ++ [(last, .string text)]))
  | segment :: rest, members =>
    match Members.get? members segment with
    | none => do
      let inner ← Members.insertAt text rest []
      return inner.map fun inner => members ++ [(segment, .object inner)]
    | some (.object inner) => do
      let inner ← Members.insertAt text rest inner
      return inner.map fun inner => Members.assign segment (.object inner) members
    | some _ => .error segment

/-- Where the catalog of a project is. -/
structure Catalog where
  root : Path
  directory : Path := ⟨"translations"⟩
  locale : String := "en"
deriving DecidableEq, Repr

/-- Why a text could not be added to a catalog. -/
inductive CatalogError where
  | missing (path : Path)
  | unreadable (path : Path) (cause : FileError)
  | malformed (path : Path) (fault : Json.Fault)
  | notObject (path : Path)
  | conflict (path : Path) (key segment : String)
  | unwritable (path : Path) (cause : FileError)
deriving DecidableEq, Repr

/-- The wording of a catalog error. -/
def CatalogError.message : CatalogError → String
  | .missing path => "translation catalog not found: " ++ path.spelling
  | .unreadable path cause =>
    "failed to read translation catalog " ++ path.spelling ++ ": " ++ cause.message
  | .malformed path fault =>
    "failed to parse translation catalog " ++ path.spelling ++ ": " ++ fault.message
  | .notObject path => "root of translation catalog must be an object: " ++ path.spelling
  | .conflict path key segment =>
    "cannot add `" ++ key ++ "` to " ++ path.spelling ++ ": `" ++ segment ++ "` is not an object"
  | .unwritable path cause =>
    "failed to write translation catalog " ++ path.spelling ++ ": " ++ cause.message

namespace Catalog

/-- The file of the catalog. -/
def path (catalog : Catalog) : Path :=
  (catalog.root.join catalog.directory).child (catalog.locale ++ ".json")

/-- The segments of the key of a text in the template at a path, which may start with the project's
root. -/
def segments (catalog : Catalog) (filePath text : String) : List String :=
  Key.segments ((Path.mk filePath).relativeTo catalog.root) text

/-- The members that the file of the catalog holds. -/
def load (catalog : Catalog) (disk : Disk) : Except CatalogError Members := do
  if !disk.isFile catalog.path then throw (.missing catalog.path)
  let text ← (disk.readText catalog.path).mapError (.unreadable catalog.path)
  match ← (Json.parse text).mapError (.malformed catalog.path) with
  | .object members => return members
  | _ => throw (.notObject catalog.path)

/-- The members of the catalog with a text added, or none if its key is there. -/
def update (catalog : Catalog) (disk : Disk) (segments : List String) (text : String) :
    Except CatalogError (Option Members) := do
  let members ← catalog.load disk
  (Members.insertAt text segments members).mapError
    (.conflict catalog.path (Key.written segments))

/-- The text of a catalog file. -/
def fileText (members : Members) : String := (Json.object members).pretty ++ "\n"

/-- Add a text under segments. The file is written only if the key was not there. -/
def insert (catalog : Catalog) (segments : List String) (text : String) (disk : Disk) :
    Except CatalogError Insertion × Disk :=
  match catalog.update disk segments text with
  | .error error => (.error error, disk)
  | .ok none => (.ok .existing, disk)
  | .ok (some members) =>
    match disk.writeText catalog.path (fileText members) with
    | .error cause => (.error (.unwritable catalog.path cause), disk)
    | .ok disk => (.ok .added, disk)

/-- Add a text of a template and answer its key. -/
def addText (catalog : Catalog) (filePath text : String) (disk : Disk) :
    Except CatalogError String × Disk :=
  let segments := catalog.segments filePath text
  let (result, disk) := catalog.insert segments text disk
  (result.map fun _ => Key.written segments, disk)

end Catalog

end TemplateLint
