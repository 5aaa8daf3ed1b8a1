import TemplateLint.Issue
import TemplateLint.Rule.Fixing
import TemplateLint.Text.Styled

/-! # Reports

The text that a run prints: a block per issue in the order of files, places and rules, and a summary
behind them.
-/

namespace TemplateLint.Report

open Text

/-- The mark of a run without issues. -/
def successMark : String := "✓"

/-- The mark of a run with issues. -/
def failureMark : String := "✘"

/-- A noun behind a count. -/
def counted (count : Nat) (noun : String) : String :=
  if count = 1 then noun else noun ++ "s"

/-- A line break. -/
def newline : Span := plain "\n"

/-- A file, and a place in it if one is known. -/
def place (file : String) : Option Location → String
  | none => file
  | some location => file ++ ":" ++ toString location.line ++ ":" ++ toString location.column

/-- The line that points to a file. -/
def pointer (file : String) (location : Option Location) : Styled :=
  [plain "  ", colored .blue "-->", plain " ", plain (place file location), newline]

/-- The severity of an issue. -/
def severity : Severity → Span
  | .error => boldColored .red Severity.error.name
  | .warning => boldColored .yellow Severity.warning.name

/-- The block of an issue; its note is indented by `width`. -/
def block (width : Nat) (issue : Issue) : Styled :=
  [severity issue.severity, plain ": \"", plain issue.message, plain "\"  ",
   dimmedColored .cyan issue.rule, newline] ++
  pointer issue.file issue.location? ++
  [plain ("".pushn ' ' width), plain " ", colored .blue "=", plain " ", bold "note:", plain " ",
   plain issue.details, newline, newline]

/-- How many digits the largest line number has. -/
def lineWidth (issues : List Issue) : Nat :=
  let lines := issues.filterMap fun issue => issue.location?.map Location.line
  (toString (lines.foldl max 0)).length

/-- How many issues are of a severity. -/
def count (severity : Severity) (issues : List Issue) : Nat :=
  issues.countP fun issue => issue.severity == severity

/-- The summary of the issues. -/
def summary (issues : List Issue) : Styled :=
  let errors := count .error issues
  let warnings := count .warning issues
  [colored .red failureMark, plain " ", plain (toString (errors + warnings)), plain " ",
   plain (counted (errors + warnings) "problem"), plain " (", plain (toString errors), plain " ",
   colored .red (counted errors "error"), plain ", ", plain (toString warnings), plain " ",
   colored .yellow (counted warnings "warning"), plain ")", newline]

/-- Issues in the order of a report; those that tie keep their order. -/
def inOrder (issues : List Issue) : List Issue := issues.mergeSort Issue.le

/-- The report of issues. -/
def issues (found : List Issue) : Styled :=
  if found.isEmpty then []
  else (inOrder found).flatMap (block (lineWidth found)) ++ summary found

/-- A line that tells of success. -/
def success (text : String) : Styled :=
  [colored .green successMark, plain " ", colored .green text, newline]

/-- The report of a run without issues. -/
def clean (templates : Nat) : Styled :=
  success ("Checked " ++ toString templates ++ " " ++ counted templates "template" ++
    " - no issues found")

/-- The report of a run with the rule switched off. -/
def disabled (settingsFile : String) : Styled :=
  success ("Rule is disabled in " ++ settingsFile)

/-- The block of a replacement. -/
def replacement (file : String) (replacement : Replacement) : Styled :=
  pointer file (some replacement.location) ++
  [plain "     ", colored .blue "|", newline,
   plain "     ", colored .red "-", plain " ", plain (quoted (trim replacement.source)), newline,
   plain "     ", colored .green "+", plain " ", plain replacement.call, newline, newline]

/-- The replacements of a template. -/
def replacements (file : String) (replacements : List Replacement) : Styled :=
  replacements.flatMap (replacement file)

end TemplateLint.Report
