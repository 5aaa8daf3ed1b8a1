import TemplateLint.Session.Basic

/-! # Fixes of a project

The replacements of every document, planned or applied. Planning writes nothing. Applying takes the
documents one after another: the texts of a document go into the catalog before the document is
written back, and if that fails its replacements are findings again.
-/

namespace TemplateLint

/-- The fixes of a document. -/
structure Fixes where
  /-- The template that the document describes, or its own file if it could not be read. -/
  filePath : String
  replacements : List Replacement := []
  /-- What is left to report. -/
  issues : List Issue := []
deriving DecidableEq, Repr

/-- The finding that a replacement resolved. -/
def Replacement.toFinding (replacement : Replacement) : Finding where
  source := replacement.source
  location := replacement.location

/-- The issue of a text that the catalog refused. -/
def Refusal.issue (file : String) (refusal : Refusal) : Issue :=
  .refused file refusal.finding.location refusal.finding.text refusal.error.message

namespace Session

/-- The fixes of a document that could not be read. -/
def unread (session : Session) (path : Path) (error : DocumentError) : Fixes where
  filePath := session.display path
  issues := [session.unreadable path error]

/-- The replacement planned for a finding; without a catalog there is none. -/
def planned? (session : Session) (ready : Bool) (filePath : String) (finding : Finding) :
    Option Replacement :=
  if ready then session.catalog.plan? filePath finding else none

/-- The fixes planned for the document at a path. -/
def plan (session : Session) (rule : Rule) (disk : Disk) (path : Path) : Fixes :=
  match Document.load disk path with
  | .error error => session.unread path error
  | .ok document =>
    let findings := rule.findings document.template
    let planned? := session.planned? (disk.isFile session.catalog.path) document.filePath
    { filePath := document.filePath
      replacements := findings.filterMap planned?
      issues :=
        (findings.filter fun finding => (planned? finding).isNone).map (.bare document.filePath) }

/-- The fixes planned for all documents. -/
def planAll (session : Session) (rule : Rule) (disk : Disk) : List Fixes :=
  session.documents.map (session.plan rule disk)

/-- The fixes of a document that was written back, or needs not be. -/
def written (filePath : String) (outcome : Outcome) : Fixes where
  filePath
  replacements := outcome.replacements
  issues :=
    outcome.refusals.map (Refusal.issue filePath) ++ outcome.remaining.map (.bare filePath)

/-- The fixes of a document that could not be written back. -/
def unwritten (session : Session) (path : Path) (filePath : String) (outcome : Outcome)
    (error : DocumentError) : Fixes where
  filePath
  issues :=
    outcome.refusals.map (Refusal.issue filePath) ++
    [.unwritable (session.display path) error.root] ++
    (outcome.remaining ++ outcome.replacements.map Replacement.toFinding).map (.bare filePath)

/-- Fix the document at a path, and write it back if a text was replaced. -/
def apply (session : Session) (rule : Rule) (disk : Disk) (path : Path) : Fixes × Disk :=
  match Document.load disk path with
  | .error error => (session.unread path error, disk)
  | .ok document =>
    let (document, outcome, disk) := rule.lint (.fix session.catalog) document disk
    if outcome.replacements.isEmpty then (written document.filePath outcome, disk)
    else
      match document.save disk path with
      | .ok disk => (written document.filePath outcome, disk)
      | .error error => (session.unwritten path document.filePath outcome error, disk)

/-- Fix documents one after another. -/
def applyEach (session : Session) (rule : Rule) : Disk → List Path → List Fixes × Disk
  | disk, [] => ([], disk)
  | disk, path :: rest =>
    let (fixes, disk) := session.apply rule disk path
    let (others, disk) := session.applyEach rule disk rest
    (fixes :: others, disk)

/-- Fix all documents. -/
def applyAll (session : Session) (rule : Rule) (disk : Disk) : List Fixes × Disk :=
  session.applyEach rule disk session.documents

end Session

end TemplateLint
