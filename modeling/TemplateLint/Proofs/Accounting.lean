import Mathlib
import TemplateLint.Proofs.Runs

/-! # No finding is lost

A run that fixes a project answers for every finding of every document once: as an issue, or as a
replacement. What it answers for is what a check reports on the disk before the run, because a run
changes no document before it is taken. This holds whatever the catalog refuses and whichever
documents cannot be read or written.
-/

namespace TemplateLint

/-! ## Notes -/

/-- What is said about a bare text. -/
structure Note where
  message : String
  location : Location
  source : String
deriving DecidableEq, Repr

/-- The note of a finding. -/
def Finding.note (finding : Finding) : Note where
  message := finding.message
  location := finding.location
  source := finding.source

/-- The note of a replacement, with the plain notice. -/
def Replacement.note (replacement : Replacement) : Note where
  message := Finding.notice
  location := replacement.location
  source := replacement.source

/-- The note of an issue about bare text. -/
def Issue.note? : Issue → Option Note
  | .bare _ finding => some finding.note
  | _ => none

theorem Issue.filterMap_note?_bare (file : String) (findings : List Finding) :
    (findings.map (Issue.bare file)).filterMap Issue.note? = findings.map Finding.note := by
  rw [List.filterMap_map, ← List.filterMap_eq_map]
  rfl

theorem Issue.filterMap_note?_refused (file : String) (refusals : List Refusal) :
    (refusals.map (Refusal.issue file)).filterMap Issue.note? = [] := by
  simp [Issue.note?, Refusal.issue]

theorem Issue.filter_isFailure_bare (file : String) (findings : List Finding) :
    (findings.map (Issue.bare file)).filter Issue.isFailure = [] := by
  simp [Issue.isFailure]

theorem Issue.filter_isFailure_refused (file : String) (refusals : List Refusal) :
    (refusals.map (Refusal.issue file)).filter Issue.isFailure = [] := by
  simp [Issue.isFailure, Refusal.issue]

/-- A finding that a replacement stands for has its note, since text of the body has no attribute. -/
theorem Catalog.Accounts.note_replacement {rule : Rule} {catalog : Catalog} {filePath : String}
    {template : Template} {fixing : Catalog.Fixing} {fixes : List Fix}
    (accounts : catalog.Accounts filePath template (rule.findings template) fixing fixes)
    {fix : Fix} (present : fix ∈ fixes) : fix.replacement.note = fix.finding.note := by
  have found : fix.finding ∈ rule.findings template :=
    accounts.parts.left_sublist.subset (List.mem_map_of_mem present)
  obtain ⟨text, _, _, _, _, plain⟩ :=
    (rule.mem_findings_targeted _ _ _).mp ⟨found, accounts.targeted fix present⟩
  obtain ⟨_, location, source, _, _⟩ := plan?_eq_some_iff.mp (accounts.planned fix present)
  rw [Replacement.note, Finding.note, location, source, Finding.message, plain]

/-- The findings of a template are those that are left and those that were replaced. -/
theorem Catalog.Accounts.notes {rule : Rule} {catalog : Catalog} {filePath : String}
    {template : Template} {fixing : Catalog.Fixing} {fixes : List Fix}
    (accounts : catalog.Accounts filePath template (rule.findings template) fixing fixes) :
    (fixing.outcome.remaining.map Finding.note ++
      fixing.outcome.replacements.map Replacement.note).Perm
        ((rule.findings template).map Finding.note) := by
  have replaced : fixing.outcome.replacements.map Replacement.note =
      (fixes.map Fix.finding).map Finding.note := by
    rw [accounts.replacements, List.map_map, List.map_map]
    exact List.map_congr_left fun fix present => accounts.note_replacement present
  rw [replaced]
  calc fixing.outcome.remaining.map Finding.note ++ (fixes.map Fix.finding).map Finding.note
    _ |>.Perm ((fixes.map Fix.finding).map Finding.note ++
        fixing.outcome.remaining.map Finding.note) := List.perm_append_comm
    _ = (fixes.map Fix.finding ++ fixing.outcome.remaining).map Finding.note := by
      rw [List.map_append]
    _ |>.Perm ((rule.findings template).map Finding.note) := accounts.parts.perm.map _

namespace Session

/-! ## One document -/

/-- The notes of a check of the document at a path. -/
def checkNotes (session : Session) (rule : Rule) (disk : Disk) (path : Path) : List Note :=
  (session.issuesOf rule disk path).filterMap Issue.note?

theorem checkNotes_of_error {session : Session} {rule : Rule} {disk : Disk} {path : Path}
    {error : DocumentError} (failed : Document.load disk path = .error error) :
    session.checkNotes rule disk path = [] := by
  simp [checkNotes, issuesOf, failed, unreadable, Issue.note?]

theorem checkNotes_of_ok {session : Session} {rule : Rule} {disk : Disk} {path : Path}
    {document : Document} (loaded : Document.load disk path = .ok document) :
    session.checkNotes rule disk path = (rule.findings document.template).map Finding.note := by
  simp only [checkNotes, issuesOf, loaded, Rule.lint, Rule.report]
  exact Issue.filterMap_note?_bare _ _

/-- The failures that are to be reported of a document: that it could not be read, or not be written
back. -/
def failures (session : Session) (disk : Disk) (result : Result) : List Issue :=
  match Document.load disk result.path, result.saving with
  | .error error, _ => [session.unreadable result.path error]
  | .ok _, .failed error => [.unwritable (session.display result.path) error.root]
  | .ok _, _ => []

/-- A result answers for the findings that a check reports on a disk. -/
structure Accounted (session : Session) (rule : Rule) (disk : Disk) (result : Result) : Prop where
  notes : (result.fixes.issues.filterMap Issue.note? ++
    result.fixes.replacements.map Replacement.note).Perm (session.checkNotes rule disk result.path)
  failures : result.fixes.issues.filter Issue.isFailure = session.failures disk result
  /-- Nothing is said about a document that could not be read but that. -/
  unread : ∀ error, Document.load disk result.path = .error error →
    result.fixes.issues = [session.unreadable result.path error] ∧ result.fixes.replacements = []
  /-- All findings of a document that could not be written back are issues again. -/
  unwritten : ∀ error, result.saving = .failed error → result.fixes.replacements = [] ∧
    (result.fixes.issues.filterMap Issue.note?).Perm (session.checkNotes rule disk result.path)

namespace Accounted

variable {session : Session} {rule : Rule} {disk : Disk} {path : Path} {document : Document}
  {fixing : Catalog.Fixing} {fixes : List Fix}

theorem of_unread {error : DocumentError} (failed : Document.load disk path = .error error) :
    session.Accounted rule disk ⟨path, .unneeded, session.unread path error⟩ where
  notes := by
    rw [checkNotes_of_error failed]
    exact .nil
  failures := by
    simp only [Session.failures, failed]
    rfl
  unread := by
    intro other same
    obtain rfl : error = other := Except.error.inj (failed.symm.trans same)
    exact ⟨rfl, rfl⟩
  unwritten := by simp

theorem of_written (loaded : Document.load disk path = .ok document)
    (accounts : session.catalog.Accounts document.filePath document.template
      (rule.findings document.template) fixing fixes)
    {saving : Saving} (succeeded : ∀ error, saving ≠ .failed error) :
    session.Accounted rule disk ⟨path, saving, written document.filePath fixing.outcome⟩ where
  notes := by
    rw [checkNotes_of_ok loaded]
    simp only [written, List.filterMap_append, Issue.filterMap_note?_refused,
      Issue.filterMap_note?_bare, List.nil_append]
    exact accounts.notes
  failures := by
    have none : session.failures disk
        ⟨path, saving, written document.filePath fixing.outcome⟩ = [] := by
      cases saving with
      | failed error => exact absurd rfl (succeeded error)
      | unneeded => simp [Session.failures, loaded]
      | done => simp [Session.failures, loaded]
    rw [none]
    simp only [written, List.filter_append, Issue.filter_isFailure_refused,
      Issue.filter_isFailure_bare, List.append_nil]
  unread := by simp [loaded]
  unwritten := fun error failed => absurd failed (succeeded error)

theorem of_unwritten (loaded : Document.load disk path = .ok document)
    (accounts : session.catalog.Accounts document.filePath document.template
      (rule.findings document.template) fixing fixes) (error : DocumentError) :
    session.Accounted rule disk
      ⟨path, .failed error, session.unwritten path document.filePath fixing.outcome error⟩ := by
  -- A replacement turned into a finding again has the note of the replacement.
  have again : ((session.unwritten path document.filePath fixing.outcome error).issues.filterMap
      Issue.note?).Perm (session.checkNotes rule disk path) := by
    rw [checkNotes_of_ok loaded]
    simp only [Session.unwritten, List.filterMap_append, Issue.filterMap_note?_refused,
      Issue.filterMap_note?_bare, List.nil_append]
    rw [List.map_append, List.map_map]
    exact accounts.notes
  refine ⟨?_, ?_, by simp [loaded], ?_⟩
  · simpa [Session.unwritten] using again
  · simp only [Session.failures, loaded, Session.unwritten, List.filter_append,
      Issue.filter_isFailure_refused, Issue.filter_isFailure_bare, List.nil_append,
      List.append_nil]
    rfl
  · intro _ _
    exact ⟨rfl, again⟩

end Accounted

/-! ## All documents -/

/-- What holds of the findings at every moment of a run: the documents that are done with are
accounted for, and so are the findings dealt with in the document at hand. -/
structure Balanced (session : Session) (rule : Rule) (disk : Disk) (state : State) : Prop where
  results : ∀ result ∈ state.results, session.Accounted rule disk result
  within : ∀ path document fixing findings, state.phase = .within path document fixing findings →
    Document.load disk path = .ok document ∧ ∃ dealt fixes,
      dealt ++ findings = rule.findings document.template ∧
        session.catalog.Accounts document.filePath document.template dealt fixing fixes

/-- Up to the result for a document, a run has not changed its file. -/
theorem Frame.readText_pending {session : Session} {disk : Disk} {state : State} {path : Path}
    {rest : List Path} (frame : session.Frame disk state)
    (separate : session.documents.Pairwise fun a b => ¬ disk.SameFile a b)
    (apart : ∀ path ∈ session.documents, ¬ disk.SameFile path session.catalog.path)
    (pending : session.documents = state.results.map Result.path ++ path :: rest) :
    state.disk.readText path = disk.readText path := by
  apply frame.changes.readText
  intro other changed
  rcases List.mem_cons.mp changed with rfl | rewritten
  · exact apart path (by simp [pending])
  · have taken : other ∈ state.results.map Result.path :=
      (List.filter_sublist.map Result.path).subset rewritten
    rw [pending, List.pairwise_append] at separate
    have earlier := separate.2.2 other taken path (List.mem_cons_self ..)
    exact fun same => earlier same.symm

/-- A document that is taken has not been changed by the run. -/
theorem Frame.load_next {session : Session} {disk now : Disk} {results : List Result}
    {printed : List Members} {path : Path} {rest : List Path}
    (frame : session.Frame disk ⟨results, printed, .between now, path :: rest⟩)
    (separate : session.documents.Pairwise fun a b => ¬ disk.SameFile a b)
    (apart : ∀ path ∈ session.documents, ¬ disk.SameFile path session.catalog.path) :
    Document.load now path = Document.load disk path := by
  have same := frame.readText_pending separate apart
    (by simpa [State.taken] using frame.documents)
  unfold Document.load
  rw [← same]
  rfl

namespace Balanced

variable {session : Session} {rule : Rule} {disk : Disk} {state next : State}

theorem start (session : Session) (rule : Rule) (disk : Disk) :
    session.Balanced rule disk (session.initial disk) where
  results := by simp [initial]
  within := by simp [initial]

/-- One more result keeps the balance between two documents. -/
theorem finish {results : List Result} (balanced : ∀ result ∈ results,
    session.Accounted rule disk result) {result : Result}
    (accounted : session.Accounted rule disk result) (printed : List Members) (now : Disk)
    (rest : List Path) :
    session.Balanced rule disk ⟨results ++ [result], printed, .between now, rest⟩ where
  results := by simpa [or_imp, forall_and] using ⟨balanced, accounted⟩
  within := by simp

/-- When all findings of a document are dealt with, all of them are accounted for. -/
theorem accounts {results : List Result} {printed : List Members} {path : Path}
    {document : Document} {fixing : Catalog.Fixing} {rest : List Path}
    (balanced : session.Balanced rule disk
      ⟨results, printed, .within path document fixing [], rest⟩) :
    Document.load disk path = .ok document ∧ ∃ fixes, session.catalog.Accounts document.filePath
      document.template (rule.findings document.template) fixing fixes := by
  obtain ⟨loaded, dealt, fixes, split, accounts⟩ := balanced.within _ _ _ _ rfl
  rw [List.append_nil] at split
  exact ⟨loaded, fixes, split ▸ accounts⟩

theorem step (balanced : session.Balanced rule disk state) (frame : session.Frame disk state)
    (separate : session.documents.Pairwise fun a b => ¬ disk.SameFile a b)
    (apart : ∀ path ∈ session.documents, ¬ disk.SameFile path session.catalog.path)
    (step : session.Step rule state next) : session.Balanced rule disk next := by
  cases step with
  | unread failed =>
    exact finish balanced.results (.of_unread (frame.load_next separate apart ▸ failed)) _ _ _
  | @begin results printed now path rest document loaded =>
    refine ⟨balanced.results, ?_⟩
    rintro _ _ _ _ ⟨⟩
    exact ⟨frame.load_next separate apart ▸ loaded, [], [], rfl, .start ..⟩
  | @deal results printed more path document fixing next finding findings rest deals =>
    refine ⟨balanced.results, ?_⟩
    rintro _ _ _ _ ⟨⟩
    obtain ⟨loaded, dealt, fixes, split, accounts⟩ := balanced.within _ _ _ _ rfl
    have dealtNext : dealt ++ [finding] ++ findings = rule.findings document.template := by
      simpa using split
    have distinct : ((dealt ++ [finding]).filterMap Finding.target).Nodup := by
      refine (rule.nodup_targets document.template).sublist ?_
      rw [← dealtNext]
      exact (List.sublist_append_left ..).filterMap _
    obtain ⟨more, accounts⟩ := accounts.step deals distinct
    exact ⟨loaded, dealt ++ [finding], more, dealtNext, accounts⟩
  | unneeded unchanged =>
    obtain ⟨loaded, fixes, accounts⟩ := balanced.accounts
    exact finish balanced.results (.of_written loaded accounts (by simp)) _ _ _
  | saved changed saved =>
    obtain ⟨loaded, fixes, accounts⟩ := balanced.accounts
    exact finish balanced.results (.of_written loaded accounts (by simp)) _ _ _
  | unsaved changed error =>
    obtain ⟨loaded, fixes, accounts⟩ := balanced.accounts
    exact finish balanced.results (.of_unwritten loaded accounts error) _ _ _

end Balanced

theorem Reaches.balanced {session : Session} {rule : Rule} {disk : Disk} {state : State}
    (reaches : session.Reaches rule disk state)
    (separate : session.documents.Pairwise fun a b => ¬ disk.SameFile a b)
    (apart : ∀ path ∈ session.documents, ¬ disk.SameFile path session.catalog.path) :
    session.Balanced rule disk state := by
  induction reaches with
  | refl => exact .start session rule disk
  | tail before step balanced =>
    exact balanced.step (Reaches.frame before) separate apart step

/-- Every run over documents in different files, none of which is the catalog, answers for the
findings that a check reports on the disk before the run, document by document. Applying all fixes
is such a run. -/
theorem runs_account_for_findings (session : Session) (rule : Rule) (disk : Disk)
    (separate : session.documents.Pairwise fun a b => ¬ disk.SameFile a b)
    (apart : ∀ path ∈ session.documents, ¬ disk.SameFile path session.catalog.path) :
    (∃ results printed, results.map Result.fixes = (session.applyAll rule disk).1 ∧
      session.Reaches rule disk (.finished results printed (session.applyAll rule disk).2)) ∧
    ∀ results printed after, session.Reaches rule disk (.finished results printed after) →
      results.map Result.path = session.documents ∧
        ∀ result ∈ results, session.Accounted rule disk result := by
  refine ⟨session.applyAll_reaches rule disk, ?_⟩
  intro results printed after reaches
  have taken := (Reaches.frame reaches).documents
  exact ⟨by simpa [State.taken, State.finished] using taken.symm,
    (Reaches.balanced reaches separate apart).results⟩

theorem sample_findings_accounted :
    (Sample.session.documents.Pairwise fun a b => ¬ Sample.disk.SameFile a b) ∧
    (∀ path ∈ Sample.session.documents,
      ¬ Sample.disk.SameFile path Sample.session.catalog.path) ∧
    ∃ results : List Result, results.map Result.fixes =
        (Sample.session.applyAll Sample.rule Sample.disk).1 ∧
      results.map Result.path = Sample.session.documents ∧
      ∀ result ∈ results, Sample.session.Accounted Sample.rule Sample.disk result := by
  have separate : Sample.session.documents.Pairwise fun a b => ¬ Sample.disk.SameFile a b := by
    decide +kernel
  have apart : ∀ path ∈ Sample.session.documents,
      ¬ Sample.disk.SameFile path Sample.session.catalog.path := by
    decide +kernel
  obtain ⟨⟨results, printed, fixes, reaches⟩, accounted⟩ :=
    runs_account_for_findings Sample.session Sample.rule Sample.disk separate apart
  exact ⟨separate, apart, results, fixes, accounted _ _ _ reaches⟩

end Session

end TemplateLint
