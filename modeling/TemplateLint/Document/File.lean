import TemplateLint.Disk.Basic
import TemplateLint.Template.Printer
import TemplateLint.Template.Reader

/-! # Document files

Documents are kept in files whose names end in `.ast.json`.
-/

namespace TemplateLint

/-- The ending of the names of document files. -/
def Document.extension : String := ".ast.json"

/-- Whether a path is one of a document file. -/
def Path.isDocument (path : Path) : Bool :=
  match path.fileName? with
  | some name => Document.extension.toList.isSuffixOf name.toList
  | none => false

/-- Why a document file could not be read or written. -/
inductive DocumentError where
  | unreadable (path : Path) (cause : FileError)
  | malformed (path : Path) (fault : Json.Fault)
  | unwritable (path : Path) (cause : FileError)
deriving DecidableEq, Repr

namespace DocumentError

/-- What went wrong, without the file it went wrong with. -/
def root : DocumentError → String
  | .unreadable _ cause => cause.message
  | .malformed _ fault => fault.message
  | .unwritable _ cause => cause.message

/-- The wording of a document error. -/
def message : DocumentError → String
  | .unreadable path cause => "Failed to read " ++ path.spelling ++ ": " ++ cause.message
  | .malformed path fault => "Failed to parse " ++ path.spelling ++ ": " ++ fault.message
  | .unwritable path cause => "Failed to write " ++ path.spelling ++ ": " ++ cause.message

end DocumentError

/-- Read a document from its file. -/
def Document.load (disk : Disk) (path : Path) : Except DocumentError Document := do
  let text ← (disk.readText path).mapError (.unreadable path)
  (Document.parse text).mapError (.malformed path)

/-- Write a document to its file. -/
def Document.save (document : Document) (disk : Disk) (path : Path) : Except DocumentError Disk :=
  (disk.writeText path document.toFileText).mapError (.unwritable path)

end TemplateLint
