import TemplateLint.Rule.Finding
import TemplateLint.Text.Quoted

/-! # Issues

What a run reports about the documents of a project, and the exit status that follows from it.
-/

namespace TemplateLint

/-- How serious an issue is. -/
inductive Severity where
  | error
  | warning
deriving DecidableEq, Repr

/-- The name of a severity. -/
def Severity.name : Severity → String
  | .error => "error"
  | .warning => "warning"

/-- Something to report about a file. -/
inductive Issue where
  /-- Bare text. -/
  | bare (file : String) (finding : Finding)
  /-- A text that the catalog refused. -/
  | refused (file : String) (location : Location) (text error : String)
  /-- A document that could not be read. -/
  | unreadable (file error : String)
  /-- A fixed document that could not be written back. -/
  | unwritable (file error : String)
deriving DecidableEq, Repr

namespace Issue

/-- The file of an issue. -/
def file : Issue → String
  | .bare file _ => file
  | .refused file _ _ _ => file
  | .unreadable file _ => file
  | .unwritable file _ => file

/-- The place of an issue in its file. -/
def location? : Issue → Option Location
  | .bare _ finding => some finding.location
  | .refused _ location _ _ => some location
  | .unreadable _ _ => none
  | .unwritable _ _ => none

/-- The wording of an issue. -/
def message : Issue → String
  | .bare _ finding => finding.message
  | .refused _ _ text _ =>
    "Could not extract " ++ Text.quoted text ++ " into the translation catalog"
  | .unreadable _ _ => "Could not read template document"
  | .unwritable _ _ => "Could not write template document"

/-- How serious an issue is. -/
def severity : Issue → Severity
  | .refused _ _ _ _ => .warning
  | _ => .error

/-- The name of the rule that an issue comes from. -/
def rule : Issue → String
  | .bare _ _ => "no-bare-strings"
  | .refused _ _ _ _ => "catalog"
  | .unreadable _ _ => "parse-error"
  | .unwritable _ _ => "write-error"

/-- The place of the rule of an issue in a report. -/
def rank : Issue → Nat
  | .bare _ _ => 0
  | .refused _ _ _ _ => 1
  | .unreadable _ _ => 2
  | .unwritable _ _ => 3

/-- More about an issue. -/
def details : Issue → String
  | .bare _ finding => "source: " ++ Text.quoted finding.source
  | .refused _ _ _ error => error
  | .unreadable _ error => error
  | .unwritable _ error => error

/-- Whether an issue is about a document that could not be read or written. -/
def isFailure : Issue → Bool
  | .unreadable _ _ => true
  | .unwritable _ _ => true
  | _ => false

/-- The order of places: by line, then by column, and a whole file before all of them. -/
def leLocation : Option Location → Option Location → Bool
  | none, _ => true
  | some _, none => false
  | some a, some b => a.line < b.line || (a.line == b.line && a.column ≤ b.column)

/-- The order of issues in a report: by file, place and rule. -/
def le (a b : Issue) : Bool :=
  if a.file ≠ b.file then a.file ≤ b.file
  else if a.location? ≠ b.location? then leLocation a.location? b.location?
  else a.rank ≤ b.rank

end Issue

/-- The exit status of a run. -/
inductive Status where
  /-- There is nothing left to report. -/
  | success
  /-- There is bare text, or work left to do. -/
  | failure
  /-- Setting up failed, or a document could not be read or written. -/
  | error
deriving DecidableEq, Repr

namespace Status

/-- The code of an exit status. -/
def code : Status → Nat
  | .success => 0
  | .failure => 1
  | .error => 2

/-- The status that follows from issues. A document that could not be read or written weighs more
than a finding, and warnings alone never fail. -/
def ofIssues (issues : List Issue) : Status :=
  if issues.any Issue.isFailure then .error
  else if issues.any fun issue => issue.severity == .error then .failure
  else .success

end Status

end TemplateLint
