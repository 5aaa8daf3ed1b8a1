import TemplateLint.Disk.Basic
import TemplateLint.Glob
import TemplateLint.Json.Typed
import TemplateLint.Rule.Decode
import TemplateLint.Text.Quoted

/-! # Settings of a project

A settings file configures the rule, the catalog and the documents to leave out; what it does not
mention has a default. The file is looked for in a directory and those above it, up to the first one
that holds a repository.
-/

namespace TemplateLint

open Json Reader

/-- The settings of a project. -/
structure Settings where
  /-- The configured value of the rule. -/
  rule : Json := .bool true
  locale : String := "en"
  translationsDir : String := "translations"
  /-- Paths and glob patterns of documents to leave out. -/
  ignores : List String := []

namespace Settings

/-- The name of a settings file. -/
def fileName : String := ".barestringsrc.json"

/-- The settings as JSON. -/
def toJson (settings : Settings) : Json :=
  .object
    [("rule", settings.rule), ("locale", .string settings.locale),
     ("translationsDir", .string settings.translationsDir),
     ("ignores", .array (settings.ignores.map .string))]

/-- The text of a settings file that changes nothing. -/
def defaultText : String := (toJson {}).pretty

/-! ## Reading -/

/-- The fields met so far. -/
structure Draft where
  rule : Option Json := none
  locale : Option String := none
  translationsDir : Option String := none
  ignores : Option (List String) := none

/-- Read the configured value of the rule. -/
def Draft.readRule (depth : Nat) (draft : Draft) : Reader Draft := do
  return { draft with rule := some (← Reader.value depth) }

/-- Read the locale. -/
def Draft.readLocale (draft : Draft) : Reader Draft := do
  return { draft with locale := some (← text) }

/-- Read the directory of the catalogs. -/
def Draft.readTranslationsDir (draft : Draft) : Reader Draft := do
  return { draft with translationsDir := some (← text) }

/-- Read the documents to leave out. -/
def Draft.readIgnores (depth : Nat) (draft : Draft) : Reader Draft := do
  return { draft with ignores := some (← listOf (fun _ => text) depth) }

/-- The settings, with defaults for what was not met. -/
def Draft.finish (draft : Draft) : Settings :=
  let default : Settings := {}
  { rule := draft.rule.getD default.rule
    locale := draft.locale.getD default.locale
    translationsDir := draft.translationsDir.getD default.translationsDir
    ignores := draft.ignores.getD default.ignores }

/-- How settings are read. -/
def record : Record Draft Settings where
  name := "Config"
  start := {}
  member depth key draft :=
    match key with
    | "rule" => once key draft.rule (draft.readRule depth)
    | "locale" => once key draft.locale draft.readLocale
    | "translationsDir" => once key draft.translationsDir draft.readTranslationsDir
    | "ignores" => once key draft.ignores (draft.readIgnores depth)
    | _ => ignored draft
  places := some fun depth =>
    [⟨Draft.readRule depth, true⟩, ⟨Draft.readLocale, true⟩, ⟨Draft.readTranslationsDir, true⟩,
     ⟨Draft.readIgnores depth, true⟩]
  finish draft := .ok draft.finish

/-- Read a whole text as settings. -/
def parse (text : String) : Except Fault Settings :=
  Json.readText (record.read depthLimit) text

/-- The rule that the settings configure, if they do not switch it off. -/
def rule? (settings : Settings) : Except RuleError (Option Rule) :=
  Rule.ofJson settings.rule

end Settings

/-- Why the settings of a project cannot be used. -/
inductive SettingsError where
  | unreadable (path : Path) (cause : FileError)
  | malformed (path : Path) (fault : Json.Fault)
  | badPattern (pattern : String) (error : Glob.Error)
  | badRule (error : RuleError)

namespace SettingsError

/-- What went wrong, without the file or setting it went wrong with. -/
def root : SettingsError → String
  | .unreadable _ cause => cause.message
  | .malformed _ fault => fault.message
  | .badPattern _ error => error.message
  | .badRule error => error.message

/-- The wording of a settings error. -/
def message : SettingsError → String
  | .unreadable path cause =>
    "Failed to read config file: " ++ Text.quotedName path.spelling ++ ": " ++ cause.message
  | .malformed path fault =>
    "Failed to parse config file: " ++ Text.quotedName path.spelling ++ ": " ++ fault.message
  | .badPattern pattern error =>
    "Invalid glob pattern in 'ignores': \"" ++ pattern ++ "\": " ++ error.message
  | .badRule error => error.message

end SettingsError

namespace Settings

/-- Check that all patterns can be read, and then the rule. -/
def validate (settings : Settings) : Except SettingsError Unit := do
  for pattern in settings.ignores do
    let _ ← (Glob.parse pattern).mapError (.badPattern pattern)
  let _ ← settings.rule?.mapError .badRule
  return ()

/-- Look for a settings file in a directory and in at most `steps` directories above it. -/
def findFrom? (disk : Disk) : Nat → Path → Option Path
  | 0, _ => none
  | steps + 1, directory =>
    if disk.has (directory.child fileName) then some (directory.child fileName)
    else if disk.has (directory.child ".git") then none
    else directory.parent?.bind (findFrom? disk steps)

/-- The settings file that applies in a directory. A parent is spelled with fewer characters than
its child, which bounds the search. -/
def find? (disk : Disk) (start : Path) : Option Path :=
  findFrom? disk (start.spelling.length + 1) start

/-- Settings and the file they come from, if there is one. -/
structure Loaded where
  settings : Settings
  path : Option Path

/-- The settings that apply in a directory. -/
def load (disk : Disk) (start : Path) : Except SettingsError Loaded := do
  match find? disk start with
  | none => return ⟨{}, none⟩
  | some path =>
    let text ← (disk.readText path).mapError (.unreadable path)
    let settings ← (parse text).mapError (.malformed path)
    settings.validate
    return ⟨settings, some path⟩

end Settings

end TemplateLint
