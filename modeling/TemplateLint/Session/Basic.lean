import TemplateLint.Catalog.Basic
import TemplateLint.Command.Basic
import TemplateLint.Document.Listing
import TemplateLint.Issue
import TemplateLint.Rule.Fixing
import TemplateLint.Settings.Basic

/-! # Sessions

What a command needs to know before it looks at the first document: the settings with the choices of
the command line in place of theirs, the rule, the root of the project and its documents.
-/

namespace TemplateLint

/-- Why a command could not do its work. -/
inductive CommandError where
  | settings (error : SettingsError)
  | exclusion (error : ExclusionError)
  /-- The settings file could not be written. -/
  | unwritable (cause : FileError)

namespace CommandError

/-- The wording of a command error. -/
def message : CommandError → String
  | .settings error => error.message
  | .exclusion error => error.message
  | .unwritable cause => "Failed to write " ++ Settings.fileName ++ ": " ++ cause.message

/-- What went wrong in the end. -/
def root : CommandError → String
  | .settings error => error.root
  | .exclusion error => error.error.message
  | .unwritable cause => cause.message

end CommandError

/-- The state of a project that a command works with. -/
structure Session where
  settings : Settings
  /-- The rule, unless it is switched off. -/
  rule : Option Rule
  root : Path
  settingsPath : Option Path
  /-- The documents to look at, in order. -/
  documents : List Path

namespace Session

/-- The directory in which the settings are looked for first. -/
def start (cwd : Path) (selection : Selection) : Path :=
  match selection.projectRoot with
  | some root => cwd.join root
  | none => cwd

/-- The root of the project: the given one, the directory of the settings, or the working
directory. -/
def rootOf (cwd : Path) (selection : Selection) (settingsPath : Option Path) : Path :=
  match selection.projectRoot with
  | some root => cwd.join root
  | none => (settingsPath.bind Path.parent?).getD cwd

/-- Prepare a session in a working directory. -/
def prepare (disk : Disk) (cwd : Path) (selection : Selection) : Except CommandError Session := do
  let loaded ← (Settings.load disk (start cwd selection)).mapError .settings
  let settings :=
    { loaded.settings with locale := selection.locale.getD loaded.settings.locale }
  let root := rootOf cwd selection loaded.path
  let rule ← settings.rule?.mapError fun error => .settings (.badRule error)
  let listing ←
    (Listing.scan disk root (selection.paths.map cwd.join) settings.ignores).mapError .exclusion
  return { settings, rule, root, settingsPath := loaded.path, documents := listing.files }

/-- The catalog of the project. -/
def catalog (session : Session) : Catalog where
  root := session.root
  directory := ⟨session.settings.translationsDir⟩
  locale := session.settings.locale

/-- A path as it is shown. -/
def display (session : Session) (path : Path) : String :=
  (path.relativeTo session.root).spelling

/-- The settings file as it is shown. -/
def settingsFile (session : Session) : String :=
  match session.settingsPath with
  | some path => session.display path
  | none => Settings.fileName

/-- The issue of a document that could not be read. -/
def unreadable (session : Session) (path : Path) (error : DocumentError) : Issue :=
  .unreadable (session.display path) error.root

/-- The issues of the document at a path, when it is checked. -/
def issuesOf (session : Session) (rule : Rule) (disk : Disk) (path : Path) : List Issue :=
  match Document.load disk path with
  | .error error => [session.unreadable path error]
  | .ok document =>
    let (document, outcome, _) := rule.lint .report document disk
    outcome.remaining.map (.bare document.filePath)

/-- The issues of all documents. -/
def issues (session : Session) (rule : Rule) (disk : Disk) : List Issue :=
  session.documents.flatMap (session.issuesOf rule disk)

end Session

end TemplateLint
