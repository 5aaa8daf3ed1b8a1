import TemplateLint.Catalog.Basic
import TemplateLint.Helper
import TemplateLint.Rule.Finding
import TemplateLint.Text.Blank

/-! # Fixing findings

Bare text of the body is replaced by a call of the translation helper, after the text was recorded
in the catalog. A finding that cannot be fixed stays a finding: it is no text of the body, its key
cannot be quoted, its text is gone, or the catalog refused it.
-/

namespace TemplateLint

/-- The replacement of a text, planned or done. -/
structure Replacement where
  location : Location
  source : String
  key : String
  /-- The call that takes the place of the text. -/
  call : String
deriving DecidableEq, Repr

/-- A finding whose text the catalog refused. -/
structure Refusal where
  finding : Finding
  error : CatalogError
deriving DecidableEq, Repr

/-- The text of a finding as it goes into the catalog. -/
def Finding.text (finding : Finding) : String := Text.trim finding.source

/-- What became of the findings of a template. -/
structure Outcome where
  /-- Findings that are left to report. -/
  remaining : List Finding := []
  replacements : List Replacement := []
  refusals : List Refusal := []

namespace Catalog

/-- The segments of the key of a finding. -/
def findingSegments (catalog : Catalog) (filePath : String) (finding : Finding) : List String :=
  catalog.segments filePath finding.text

/-- The replacement for a finding: none outside the body, or if the key cannot be quoted. -/
def plan? (catalog : Catalog) (filePath : String) (finding : Finding) : Option Replacement := do
  let _ ← finding.target
  let key := Key.written (catalog.findingSegments filePath finding)
  let call ← Helper.call? key
  return ⟨finding.location, finding.source, key, call⟩

/-- How far fixing a template has come. -/
structure Fixing where
  template : Template
  disk : Disk
  outcome : Outcome := {}

/-- Leave a finding as it is. -/
def Fixing.leave (fixing : Fixing) (finding : Finding) : Fixing :=
  { fixing with
    outcome := { fixing.outcome with remaining := fixing.outcome.remaining ++ [finding] } }

/-- Leave a finding whose text the catalog refused. -/
def Fixing.refuse (fixing : Fixing) (finding : Finding) (error : CatalogError) : Fixing :=
  { fixing with
    outcome :=
      { fixing.outcome with
        remaining := fixing.outcome.remaining ++ [finding]
        refusals := fixing.outcome.refusals ++ [⟨finding, error⟩] } }

/-- Put the call of a replacement in the place of a text. -/
def Fixing.replace (fixing : Fixing) (target : Address) (replacement : Replacement) : Fixing :=
  { fixing with
    template := fixing.template.setTextAt target replacement.call
    outcome :=
      { fixing.outcome with
        replacements := fixing.outcome.replacements ++ [replacement] } }

/-- Go on after the text of a finding was offered to the catalog: it is replaced if the catalog has
it now. -/
def Fixing.settle (fixing : Fixing) (finding : Finding) (target : Address)
    (replacement : Replacement) : Except CatalogError Insertion × Disk → Fixing
  | (.error error, disk) => { fixing with disk := disk }.refuse finding error
  | (.ok _, disk) => { fixing with disk := disk }.replace target replacement

/-- Fix one finding, if it can be fixed. -/
def fixOne (catalog : Catalog) (filePath : String) (fixing : Fixing) (finding : Finding) : Fixing :=
  match finding.target, catalog.plan? filePath finding with
  | some target, some replacement =>
    if (fixing.template.textAt? target).isNone then fixing.leave finding
    else
      fixing.settle finding target replacement
        (catalog.insert (catalog.findingSegments filePath finding) finding.text fixing.disk)
  | _, _ => fixing.leave finding

/-- Fix the findings of a template one after another. -/
def fixAll (catalog : Catalog) (filePath : String) (template : Template) (findings : List Finding)
    (disk : Disk) : Fixing :=
  findings.foldl (catalog.fixOne filePath) { template, disk }

end Catalog

/-- Report the findings of a document and leave it as it is. -/
def Rule.report (rule : Rule) (document : Document) : Outcome :=
  { remaining := rule.findings document.template }

/-- Fix a document: its new form, what became of its findings, and the disk with the catalog. -/
def Rule.fix (rule : Rule) (catalog : Catalog) (document : Document) (disk : Disk) :
    Document × Outcome × Disk :=
  let fixing :=
    catalog.fixAll document.filePath document.template (rule.findings document.template) disk
  ({ document with template := fixing.template }, fixing.outcome, fixing.disk)

/-- What is done about the findings of a document. -/
inductive Mode where
  /-- They are reported. -/
  | report
  /-- They are fixed where that is possible, and their texts go into a catalog. -/
  | fix (catalog : Catalog)

/-- Lint a document: its new form, what became of its findings, and the disk. -/
def Rule.lint (rule : Rule) (mode : Mode) (document : Document) (disk : Disk) :
    Document × Outcome × Disk :=
  match mode with
  | .report => (document, rule.report document, disk)
  | .fix catalog => rule.fix catalog document disk

end TemplateLint
