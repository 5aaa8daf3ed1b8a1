import TemplateLint.Report
import TemplateLint.Session.Fixes

/-! # Running commands

A command turns a disk into another one, with texts to print and an exit status.
-/

namespace TemplateLint

open Text

/-- What a command did. -/
structure Run where
  /-- The text for the standard output. -/
  output : Styled := []
  /-- The text for the standard error output. -/
  warnings : Styled := []
  status : Except CommandError Status
  disk : Disk

namespace Command

/-- Report the bare text of a project. -/
def runCheck (disk : Disk) (session : Session) : Run :=
  match session.rule with
  | none => { output := Report.disabled session.settingsFile, status := .ok .success, disk }
  | some rule =>
    let issues := session.issues rule disk
    { output :=
        if issues.isEmpty then Report.clean session.documents.length else Report.issues issues
      status := .ok (Status.ofIssues issues)
      disk }

/-- The warning that there is no catalog. -/
def missingCatalog (disk : Disk) (session : Session) : Styled :=
  if disk.isFile session.catalog.path then []
  else
    [boldColored .yellow "warning:", plain " translation catalog ",
     plain (session.display session.catalog.path),
     plain " does not exist, no text can be extracted\n"]

/-- How many texts are replaced. -/
def replaced (fixes : List Fixes) : Nat :=
  (fixes.flatMap Fixes.replacements).length

/-- How many templates have texts replaced. -/
def templates (fixes : List Fixes) : Nat :=
  ((fixes.filter fun fix => !fix.replacements.isEmpty).map Fixes.filePath).eraseDups.length

/-- The last lines of a run that replaced texts, or would have. -/
def conclusion (session : Session) (apply : Bool) (fixes : List Fixes) : Styled :=
  let counts :=
    " " ++ toString (replaced fixes) ++ " string(s) in " ++ toString (templates fixes) ++ " file(s)"
  if apply then
    [boldColored .green "Replaced", plain counts, plain ", catalog: ",
     plain (session.display session.catalog.path), Report.newline]
  else
    [boldColored .yellow "Would replace", plain counts, plain ".\n", plain "Run with ",
     colored .cyan "--apply", plain " to apply these changes.\n"]

/-- The report of fixes. -/
def fixReport (session : Session) (apply : Bool) (fixes : List Fixes) : Styled :=
  let issues := fixes.flatMap Fixes.issues
  if replaced fixes = 0 ∧ issues.isEmpty then Report.clean session.documents.length
  else
    (if apply then []
      else fixes.flatMap fun fix => Report.replacements fix.filePath fix.replacements) ++
    Report.issues issues ++
    (if replaced fixes = 0 then []
      else (if issues.isEmpty then [] else [Report.newline]) ++ conclusion session apply fixes)

/-- The exit status of fixes. Texts that would be replaced are work left to do. -/
def fixStatus (apply : Bool) (fixes : List Fixes) : Status :=
  let status := Status.ofIssues (fixes.flatMap Fixes.issues)
  if status = .success ∧ !apply ∧ replaced fixes ≠ 0 then .failure else status

/-- Replace the bare text of a project, or show what would be replaced. -/
def runFix (disk : Disk) (session : Session) (apply : Bool) : Run :=
  match session.rule with
  | none => { output := Report.disabled session.settingsFile, status := .ok .success, disk }
  | some rule =>
    let (fixes, after) :=
      if apply then session.applyAll rule disk else (session.planAll rule disk, disk)
    { output := fixReport session apply fixes
      warnings := missingCatalog disk session
      status := .ok (fixStatus apply fixes)
      disk := after }

/-- Write a settings file in a directory that has none. -/
def runInit (disk : Disk) (cwd : Path) : Run :=
  let path := cwd.child Settings.fileName
  if disk.has path then
    { warnings := [plain "Error: ", plain Settings.fileName, plain " already exists\n"]
      status := .ok .failure
      disk }
  else
    match disk.writeText path (Settings.defaultText ++ "\n") with
    | .error cause => { status := .error (.unwritable cause), disk }
    | .ok disk =>
      { output := Report.success ("Created " ++ Settings.fileName), status := .ok .success, disk }

/-- Open a session and go on with it. -/
def within (disk : Disk) (cwd : Path) (selection : Selection) (run : Session → Run) : Run :=
  match Session.prepare disk cwd selection with
  | .error error => { status := .error error, disk }
  | .ok session => run session

/-- Run a command in a working directory. -/
def run (disk : Disk) (cwd : Path) : Command → Run
  | .check selection => within disk cwd selection (runCheck disk)
  | .fix selection apply => within disk cwd selection fun session => runFix disk session apply
  | .init => runInit disk cwd

/-- Run what was asked for; help if that is nothing. -/
def runOrHelp (disk : Disk) (cwd : Path) : Option Command → Run
  | none => { output := [plain help], status := .ok .success, disk }
  | some command => command.run disk cwd

end Command

end TemplateLint
