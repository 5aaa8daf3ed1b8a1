import Mathlib
import TemplateLint.Command.Run
import TemplateLint.Proofs.Forecast
import TemplateLint.Proofs.WriteBack

/-! # What an exit status tells

A status is worked out from one flat list of issues, in which warnings do not count. Here it is read
as a statement about the project. A check and a plan tell the same, although a plan takes findings
out of the issues and counts them as replacements. A run that applies its fixes tells whether every
finding of a check was replaced and every document was read and written back: after a success, the
files hold the documents with all findings replaced. A refusal of the catalog is a warning only, but
the refused finding is left as an issue, so such a run never succeeds.
-/

namespace TemplateLint

/-! ## Statuses of issues -/

/-- What a status stands for: success for work that is done, error for work that failed, and failure
for all that lies between. -/
structure Status.Tells (status : Status) (done failed : Prop) : Prop where
  success_iff : status = .success ↔ done
  error_iff : status = .error ↔ failed
  failure_iff : status = .failure ↔ ¬ done ∧ ¬ failed

namespace Status.Tells

variable {status other : Status} {done failed : Prop}

theorem congr (tells : status.Tells done failed) {ended broken : Prop} (sameDone : done ↔ ended)
    (sameFailed : failed ↔ broken) : status.Tells ended broken := by
  rwa [← propext sameDone, ← propext sameFailed]

/-- There is one status for what is to be told. -/
theorem unique (tells : status.Tells done failed) (alike : other.Tells done failed) :
    status = other := by
  cases status with
  | success => exact (alike.success_iff.mpr (tells.success_iff.mp rfl)).symm
  | failure => exact (alike.failure_iff.mpr (tells.failure_iff.mp rfl)).symm
  | error => exact (alike.error_iff.mpr (tells.error_iff.mp rfl)).symm

/-- A success that is withheld because there is more to do. -/
theorem withhold (tells : status.Tells done failed) (more : Prop) [Decidable more] :
    (if status = .success ∧ more then .failure else status).Tells (done ∧ ¬ more) failed := by
  obtain ⟨success_iff, error_iff, failure_iff⟩ := tells
  split_ifs with withheld
  · have unfailed : ¬ failed := by
      rw [← error_iff, withheld.1]
      simp
    exact ⟨by simp [withheld.2], by simp [unfailed], by simp [withheld.2, unfailed]⟩
  · refine ⟨?_, error_iff, ?_⟩
    · rw [← success_iff]
      tauto
    · rw [failure_iff, ← success_iff]
      tauto

end Status.Tells

namespace Issue

/-- There are warnings at most. -/
def Quiet (issues : List Issue) : Prop := ∀ issue ∈ issues, issue.severity = .warning

/-- A document could not be read or written. -/
def Failing (issues : List Issue) : Prop := ∃ issue ∈ issues, issue.isFailure = true

theorem severity_eq_warning_iff (issue : Issue) :
    issue.severity = .warning ↔ issue.note? = none ∧ issue.isFailure = false := by
  cases issue <;> simp [severity, note?, isFailure]

theorem quiet_iff (issues : List Issue) :
    Quiet issues ↔ issues.filterMap note? = [] ∧ issues.filter isFailure = [] := by
  simp only [Quiet, severity_eq_warning_iff, List.filterMap_eq_nil_iff, List.filter_eq_nil_iff,
    Bool.not_eq_true, ← forall₂_and]

theorem failing_iff (issues : List Issue) : Failing issues ↔ issues.filter isFailure ≠ [] := by
  simp [Failing, List.filter_eq_nil_iff]

theorem quiet_bare (file : String) (findings : List Finding) :
    Quiet (findings.map (.bare file)) ↔ findings = [] := by
  rw [quiet_iff, filterMap_note?_bare, filter_isFailure_bare, List.map_eq_nil_iff]
  exact and_iff_left rfl

theorem not_failing_bare (file : String) (findings : List Finding) :
    ¬ Failing (findings.map (.bare file)) := by
  rw [failing_iff, filter_isFailure_bare]
  exact not_not_intro rfl

end Issue

theorem Status.ofIssues_tells (issues : List Issue) :
    (ofIssues issues).Tells (Issue.Quiet issues) (Issue.Failing issues) := by
  have loud : (issues.any fun issue => issue.severity == .error) = true ↔ ¬ Issue.Quiet issues := by
    simp only [List.any_eq_true, beq_iff_eq, Issue.Quiet, not_forall, exists_prop]
    refine exists_congr fun issue => and_congr_right fun _ => ?_
    cases issue.severity <;> simp
  have failing : issues.any Issue.isFailure = true ↔ Issue.Failing issues := by
    simp only [List.any_eq_true, Issue.Failing]
  have quiet : Issue.Failing issues → ¬ Issue.Quiet issues := by
    rw [Issue.failing_iff, Issue.quiet_iff]
    tauto
  unfold ofIssues
  split_ifs with broken bare
  · rw [failing] at broken
    exact ⟨by simp [quiet broken], by simp [broken], by simp [broken]⟩
  · rw [failing] at broken
    rw [loud] at bare
    exact ⟨by simp [bare], by simp [broken], by simp [bare, broken]⟩
  · rw [failing] at broken
    rw [loud, not_not] at bare
    exact ⟨by simp [bare], by simp [broken], by simp [bare]⟩

/-- The status of issues that come from several items. -/
theorem Status.ofIssues_flatMap_tells {α : Type} (items : List α) (issuesOf : α → List Issue) :
    (ofIssues (items.flatMap issuesOf)).Tells (∀ item ∈ items, Issue.Quiet (issuesOf item))
      (∃ item ∈ items, Issue.Failing (issuesOf item)) := by
  refine (ofIssues_tells _).congr List.forall_mem_flatMap ?_
  simp only [Issue.Failing, List.mem_flatMap]
  tauto

/-! ## A check and a plan -/

/-- The document at a path cannot be read. -/
def Document.Unreadable (disk : Disk) (path : Path) : Prop :=
  ∃ error, Document.load disk path = .error error

/-- The document at a path can be read, and nothing is found in it. -/
def Rule.Clean (rule : Rule) (disk : Disk) (path : Path) : Prop :=
  ∃ document, Document.load disk path = .ok document ∧ rule.findings document.template = []

theorem Document.not_unreadable_of_load {disk : Disk} {path : Path} {document : Document}
    (loaded : Document.load disk path = .ok document) : ¬ Document.Unreadable disk path := by
  rintro ⟨error, failed⟩
  cases loaded.symm.trans failed

theorem Rule.clean_iff_of_load {rule : Rule} {disk : Disk} {path : Path} {document : Document}
    (loaded : Document.load disk path = .ok document) :
    rule.Clean disk path ↔ rule.findings document.template = [] := by
  simp [Clean, loaded]

namespace Session

variable {session : Session} {rule : Rule} {disk : Disk} {path : Path} {document : Document}

theorem quiet_unreadable (session : Session) (path : Path) (error : DocumentError) :
    ¬ Issue.Quiet [session.unreadable path error] ∧
      Issue.Failing [session.unreadable path error] := by
  simp [Issue.Quiet, Issue.Failing, unreadable, Issue.severity, Issue.isFailure]

/-- The issues of a check are quiet for a clean document, and failing for one that cannot be
read. -/
theorem issuesOf_tells (session : Session) (rule : Rule) (disk : Disk) (path : Path) :
    (Issue.Quiet (session.issuesOf rule disk path) ↔ rule.Clean disk path) ∧
      (Issue.Failing (session.issuesOf rule disk path) ↔ Document.Unreadable disk path) := by
  cases loaded : Document.load disk path with
  | error error =>
    obtain ⟨loud, failing⟩ := session.quiet_unreadable path error
    simp [issuesOf, loaded, loud, failing, Rule.Clean, Document.Unreadable]
  | ok document =>
    simp only [issuesOf, loaded, Rule.lint, Rule.report, Issue.quiet_bare, Issue.not_failing_bare,
      Rule.clean_iff_of_load loaded, Document.not_unreadable_of_load loaded, and_self]

/-- The fixes planned for a document are quiet and none if the document is clean: a finding is
either planned to be replaced or left. -/
theorem plan_tells (session : Session) (rule : Rule) (disk : Disk) (path : Path) :
    (Issue.Quiet (session.plan rule disk path).issues ∧
        (session.plan rule disk path).replacements = [] ↔ rule.Clean disk path) ∧
      (Issue.Failing (session.plan rule disk path).issues ↔ Document.Unreadable disk path) := by
  cases loaded : Document.load disk path with
  | error error =>
    obtain ⟨loud, failing⟩ := session.quiet_unreadable path error
    simp [plan, unread, loaded, loud, failing, Rule.Clean, Document.Unreadable]
  | ok document =>
    simp only [plan, loaded, Issue.quiet_bare, Issue.not_failing_bare,
      Rule.clean_iff_of_load loaded, Document.not_unreadable_of_load loaded, and_true]
    rw [List.filter_eq_nil_iff, List.filterMap_eq_nil_iff, List.eq_nil_iff_forall_not_mem]
    constructor
    · rintro ⟨planned, unplanned⟩ finding found
      exact planned finding found (Option.isNone_iff_eq_none.mpr (unplanned finding found))
    · intro none
      exact ⟨fun finding found => absurd found (none finding),
        fun finding found => absurd found (none finding)⟩

end Session

/-- What is told about the documents of a session: a rule that is switched off finds nothing and
reads nothing. -/
theorem Session.tells_of_rule (session : Session) (disk : Disk) {statusOf : Rule → Status}
    (tells : ∀ rule, (statusOf rule).Tells (∀ path ∈ session.documents, rule.Clean disk path)
      (∃ path ∈ session.documents, Document.Unreadable disk path)) :
    (session.rule.elim .success statusOf).Tells
      (session.rule = none ∨
        ∃ rule, session.rule = some rule ∧ ∀ path ∈ session.documents, rule.Clean disk path)
      (session.rule ≠ none ∧ ∃ path ∈ session.documents, Document.Unreadable disk path) := by
  cases session.rule with
  | none => exact ⟨by simp, by simp, by simp⟩
  | some rule => exact (tells rule).congr (by simp) (by simp)

namespace Command

/-- The status of a plan: texts that would be replaced count as findings do. -/
theorem fixStatus_plan_tells {α : Type} (items : List α) (fixesOf : α → Fixes) :
    (fixStatus false (items.map fixesOf)).Tells
      (∀ item ∈ items, Issue.Quiet (fixesOf item).issues ∧ (fixesOf item).replacements = [])
      (∃ item ∈ items, Issue.Failing (fixesOf item).issues) := by
  have none : ¬ replaced (items.map fixesOf) ≠ 0 ↔
      ∀ item ∈ items, (fixesOf item).replacements = [] := by
    rw [not_not, replaced, List.length_eq_zero_iff, List.flatMap_eq_nil_iff, List.forall_mem_map]
  have tells := (Status.ofIssues_flatMap_tells items fun item => (fixesOf item).issues).withhold
    (replaced (items.map fixesOf) ≠ 0)
  rw [none, ← forall₂_and, ← List.flatMap_map fixesOf Fixes.issues] at tells
  simpa [fixStatus] using tells

theorem within_of_error {disk : Disk} {cwd : Path} {selection : Selection} {error : CommandError}
    (failed : Session.prepare disk cwd selection = .error error) (run : Session → Run) :
    within disk cwd selection run = { status := .error error, disk } := by
  delta within
  rw [failed]

theorem within_of_ok {disk : Disk} {cwd : Path} {selection : Selection} {session : Session}
    (prepared : Session.prepare disk cwd selection = .ok session) (run : Session → Run) :
    within disk cwd selection run = run session := by
  delta within
  rw [prepared]

theorem runCheck_status (disk : Disk) (session : Session) :
    (runCheck disk session).status =
      .ok (session.rule.elim .success fun rule => Status.ofIssues (session.issues rule disk)) := by
  unfold runCheck
  cases session.rule <;> rfl

theorem runFix_plan_status (disk : Disk) (session : Session) :
    (runFix disk session false).status =
      .ok (session.rule.elim .success fun rule => fixStatus false (session.planAll rule disk)) := by
  unfold runFix
  cases session.rule <;> rfl

theorem issues_tells (disk : Disk) (session : Session) (rule : Rule) :
    (Status.ofIssues (session.issues rule disk)).Tells
      (∀ path ∈ session.documents, rule.Clean disk path)
      (∃ path ∈ session.documents, Document.Unreadable disk path) := by
  have tells := Status.ofIssues_flatMap_tells session.documents (session.issuesOf rule disk)
  simpa only [Session.issues, session.issuesOf_tells rule disk] using tells

theorem planAll_tells (disk : Disk) (session : Session) (rule : Rule) :
    (fixStatus false (session.planAll rule disk)).Tells
      (∀ path ∈ session.documents, rule.Clean disk path)
      (∃ path ∈ session.documents, Document.Unreadable disk path) := by
  have tells := fixStatus_plan_tells session.documents (session.plan rule disk)
  simpa only [Session.planAll, session.plan_tells rule disk] using tells

/-- A check and a plan exit alike, whatever they work on. If the session cannot be prepared, both
say why. Otherwise they succeed if the rule is switched off or all documents are clean, and end with
an error if the rule is on and a document cannot be read. -/
theorem check_exits_like_plan (disk : Disk) (cwd : Path) (selection : Selection) :
    (run disk cwd (.check selection)).status = (run disk cwd (.fix selection false)).status ∧
      match Session.prepare disk cwd selection with
      | .error error => (run disk cwd (.check selection)).status = .error error
      | .ok session => ∃ status, (run disk cwd (.check selection)).status = .ok status ∧
          status.Tells
            (session.rule = none ∨ ∃ rule, session.rule = some rule ∧
              ∀ path ∈ session.documents, rule.Clean disk path)
            (session.rule ≠ none ∧
              ∃ path ∈ session.documents, Document.Unreadable disk path) := by
  cases prepared : Session.prepare disk cwd selection with
  | error error =>
    have check : run disk cwd (.check selection) = _ := within_of_error prepared _
    have plan : run disk cwd (.fix selection false) = _ := within_of_error prepared _
    rw [check, plan]
    exact ⟨rfl, rfl⟩
  | ok session =>
    have check : run disk cwd (.check selection) = runCheck disk session := within_of_ok prepared _
    have plan : run disk cwd (.fix selection false) = runFix disk session false :=
      within_of_ok prepared _
    have checkTells := session.tells_of_rule disk (issues_tells disk session)
    have planTells := session.tells_of_rule disk (planAll_tells disk session)
    rw [check, plan, runCheck_status, runFix_plan_status, checkTells.unique planTells]
    exact ⟨rfl, _, rfl, planTells⟩

end Command

/-! ## Applied fixes -/

/-- Every refused finding is left. -/
def Outcome.LeavesRefused (outcome : Outcome) : Prop :=
  ∀ refusal ∈ outcome.refusals, refusal.finding ∈ outcome.remaining

theorem Catalog.Deals.leavesRefused {catalog : Catalog} {filePath : String}
    {fixing next : Catalog.Fixing} {finding : Finding} {printed : List Members}
    (deals : catalog.Deals filePath fixing finding printed next)
    (leaves : fixing.outcome.LeavesRefused) : next.outcome.LeavesRefused := by
  cases deals with
  | unplanned => exact fun refusal refused => List.mem_append_left _ (leaves refusal refused)
  | textless => exact fun refusal refused => List.mem_append_left _ (leaves refusal refused)
  | @settled _ _ _ _ answer _ _ _ _ =>
    rcases answer with ⟨error | insertion, disk⟩
    · intro refusal refused
      rcases List.mem_append.mp refused with before | here
      · exact List.mem_append_left _ (leaves refusal before)
      · rw [List.mem_singleton.mp here]
        exact List.mem_append_right _ (List.mem_singleton_self _)
    · exact leaves

namespace Session

variable {session : Session} {rule : Rule} {disk : Disk}

theorem not_quiet_unwritten (session : Session) (path : Path) (filePath : String)
    (outcome : Outcome) (error : DocumentError) :
    ¬ Issue.Quiet (session.unwritten path filePath outcome error).issues := by
  intro quiet
  have warning := quiet (.unwritable (session.display path) error.root) (by simp [unwritten])
  cases warning

/-- If no bare text is reported of a document that was written back, no finding is left. -/
theorem remaining_eq_nil {filePath : String} {outcome : Outcome}
    (none : (written filePath outcome).issues.filterMap Issue.note? = []) :
    outcome.remaining = [] := by
  simp only [written, List.filterMap_append, Issue.filterMap_note?_refused,
    Issue.filterMap_note?_bare, List.nil_append, List.map_eq_nil_iff] at none
  exact none

/-- If no finding is left in a document, none was refused. -/
theorem issues_eq_nil_of_written {filePath : String} {outcome : Outcome}
    (leaves : outcome.LeavesRefused) (quiet : Issue.Quiet (written filePath outcome).issues) :
    (written filePath outcome).issues = [] := by
  have none := remaining_eq_nil ((Issue.quiet_iff _).mp quiet).1
  have unrefused : outcome.refusals = [] := by
    refine List.eq_nil_iff_forall_not_mem.mpr fun refusal refused => ?_
    have left := leaves refusal refused
    rw [none] at left
    cases left
  simp [written, none, unrefused]

/-- What holds of refusals at every moment of a run: a document with no more than warnings has no
issue at all, and the findings refused in the document at hand are left. -/
structure Owns (state : State) : Prop where
  results : ∀ result ∈ state.results,
    Issue.Quiet result.fixes.issues → result.fixes.issues = []
  within : ∀ path document fixing findings, state.phase = .within path document fixing findings →
    fixing.outcome.LeavesRefused

namespace Owns

theorem finish {results : List Result} (before : ∀ result ∈ results,
    Issue.Quiet result.fixes.issues → result.fixes.issues = []) {result : Result}
    (here : Issue.Quiet result.fixes.issues → result.fixes.issues = []) (printed : List Members)
    (now : Disk) (rest : List Path) :
    Owns ⟨results ++ [result], printed, .between now, rest⟩ where
  results := by simpa [or_imp, forall_and] using ⟨before, here⟩
  within := by simp

theorem step {state next : State} (owns : Owns state) (step : session.Step rule state next) :
    Owns next := by
  cases step with
  | @unread _ _ _ path _ error _ =>
    exact finish owns.results (fun quiet => absurd quiet (session.quiet_unreadable path error).1) ..
  | begin =>
    refine ⟨owns.results, ?_⟩
    rintro _ _ _ _ ⟨⟩ refusal ⟨⟩
  | deal deals =>
    refine ⟨owns.results, ?_⟩
    rintro _ _ _ _ ⟨⟩
    exact deals.leavesRefused (owns.within _ _ _ _ rfl)
  | unneeded =>
    exact finish owns.results (issues_eq_nil_of_written (owns.within _ _ _ _ rfl)) ..
  | saved =>
    exact finish owns.results (issues_eq_nil_of_written (owns.within _ _ _ _ rfl)) ..
  | unsaved =>
    exact finish owns.results
      (fun quiet => absurd quiet (session.not_quiet_unwritten _ _ _ _)) ..

end Owns

theorem Reaches.owns {state : State} (reaches : session.Reaches rule disk state) : Owns state := by
  induction reaches with
  | refl => exact ⟨by simp [initial], by simp [initial]⟩
  | tail _ step owns => exact owns.step step

/-- A document was read, all that a check reports of it was replaced, and if it had to be written
back, its file holds it with all findings replaced. -/
structure Resolved (session : Session) (rule : Rule) (disk after : Disk) (result : Result) :
    Prop where
  read : ∃ document, Document.load disk result.path = .ok document
  replaced : (session.checkNotes rule disk result.path).Subperm
    (result.fixes.replacements.map Replacement.note)
  saved : result.saving ≠ .unneeded → ∃ document fixed outcome,
    session.Repaired rule disk result.path document fixed outcome ∧ outcome.remaining = [] ∧
      outcome.replacements = result.fixes.replacements ∧
        after.readText result.path = .ok fixed.toFileText

/-- A document could not be read, or not be written back. -/
def Result.Failed (disk : Disk) (result : Result) : Prop :=
  Document.Unreadable disk result.path ∨ ∃ error, result.saving = .failed error

theorem failures_eq_nil_iff (session : Session) (disk : Disk) (result : Result) :
    session.failures disk result = [] ↔ ¬ result.Failed disk := by
  unfold failures Result.Failed Document.Unreadable
  cases Document.load disk result.path with
  | error error => simp
  | ok document => cases result.saving <;> simp

namespace Accounted

variable {result : Result}

theorem failing_iff (accounted : session.Accounted rule disk result) :
    Issue.Failing result.fixes.issues ↔ result.Failed disk := by
  rw [Issue.failing_iff, accounted.failures, ne_eq, failures_eq_nil_iff, not_not]

/-- No bare text is left if the replacements make up for all that a check reports. -/
theorem notes_eq_nil_iff (accounted : session.Accounted rule disk result) :
    result.fixes.issues.filterMap Issue.note? = [] ↔
      (session.checkNotes rule disk result.path).Subperm
        (result.fixes.replacements.map Replacement.note) := by
  have notes := accounted.notes
  constructor
  · intro none
    rw [none, List.nil_append] at notes
    exact notes.symm.subperm
  · intro replaced
    have fewer := replaced.length_le
    have sum := notes.length_eq
    rw [List.length_append] at sum
    exact List.length_eq_zero_iff.mp (by omega)

/-- A document has warnings at most if it is resolved. The replacements of one that was not written
back are issues again, so it has some. -/
theorem quiet_iff (accounted : session.Accounted rule disk result) {after : Disk}
    (stored : session.Stored rule disk after result) :
    Issue.Quiet result.fixes.issues ↔ session.Resolved rule disk after result := by
  rw [Issue.quiet_iff, accounted.failures, failures_eq_nil_iff, Result.Failed,
    Document.Unreadable, not_or, not_exists, not_exists]
  constructor
  · rintro ⟨none, readable, saved⟩
    refine ⟨?_, accounted.notes_eq_nil_iff.mp none, fun needed => ?_⟩
    · cases loaded : Document.load disk result.path with
      | error error => exact absurd loaded (readable error)
      | ok document => exact ⟨document, rfl⟩
    · cases stored with
      | unneeded => exact absurd rfl needed
      | @done _ document fixed outcome repaired holds =>
        exact ⟨document, fixed, outcome, repaired, remaining_eq_nil none, rfl, holds⟩
      | failed _ _ error => exact absurd rfl (saved error)
  · rintro ⟨⟨document, loaded⟩, replaced, saved⟩
    refine ⟨accounted.notes_eq_nil_iff.mpr replaced, by simp [loaded], fun error failed => ?_⟩
    obtain ⟨_, _, _, repaired, _, reported, _⟩ := saved (by simp [failed])
    exact repaired.changed (reported.trans (accounted.unwritten error failed).1)

end Accounted

end Session

namespace Command

theorem fixStatus_apply_tells {α : Type} (items : List α) (fixesOf : α → Fixes) :
    (fixStatus true (items.map fixesOf)).Tells (∀ item ∈ items, Issue.Quiet (fixesOf item).issues)
      (∃ item ∈ items, Issue.Failing (fixesOf item).issues) := by
  have tells := Status.ofIssues_flatMap_tells items fun item => (fixesOf item).issues
  rw [← List.flatMap_map fixesOf Fixes.issues] at tells
  simpa [fixStatus] using tells

theorem runFix_apply_eq (disk : Disk) {session : Session} {rule : Rule}
    (enabled : session.rule = some rule) :
    (runFix disk session true).status = .ok (fixStatus true (session.applyAll rule disk).1) ∧
      (runFix disk session true).disk = (session.applyAll rule disk).2 := by
  simp [runFix, enabled]

/-- Applying the fixes of a project with the rule switched on is a run, in which a document is not
written back only if its file cannot be written. After every run over documents in different files,
none of which is the catalog, the files hold the documents with the replacements that are reported.
The run ends with success if all documents are resolved, with an error if a document could not be
read or written back, and with failure otherwise. It does not succeed if the catalog refused a text,
although warnings alone make no failure. -/
theorem apply_exit_tells (disk : Disk) (cwd : Path) (selection : Selection) (session : Session)
    (rule : Rule) (prepared : Session.prepare disk cwd selection = .ok session)
    (enabled : session.rule = some rule)
    (separate : session.documents.Pairwise fun a b => ¬ disk.SameFile a b)
    (apart : ∀ path ∈ session.documents, ¬ disk.SameFile path session.catalog.path) :
    (∃ results printed, results.map Session.Result.fixes = (session.applyAll rule disk).1 ∧
      session.Reaches rule disk
        (.finished results printed (run disk cwd (.fix selection true)).disk) ∧
      (run disk cwd (.fix selection true)).status =
        .ok (fixStatus true (results.map Session.Result.fixes)) ∧
      ∀ result ∈ results, ∀ error, result.saving = .failed error →
        Document.Unwritable disk result.path) ∧
    (∀ results printed after, session.Reaches rule disk (.finished results printed after) →
      results.map Session.Result.path = session.documents ∧
      (∀ result ∈ results, session.Stored rule disk after result) ∧
      (fixStatus true (results.map Session.Result.fixes)).Tells
        (∀ result ∈ results, session.Resolved rule disk after result)
        (∃ result ∈ results, result.Failed disk) ∧
      ((∃ result ∈ results, ¬ result.fixes.Unrefused) →
        fixStatus true (results.map Session.Result.fixes) ≠ .success)) ∧
    ∀ issues, Issue.Quiet issues → Status.ofIssues issues = .success := by
  refine ⟨?_, ?_, fun issues => (Status.ofIssues_tells issues).success_iff.mpr⟩
  · have applied : run disk cwd (.fix selection true) = runFix disk session true :=
      within_of_ok prepared _
    obtain ⟨results, printed, fixes, reaches, excused⟩ := session.applyAll_excused rule disk
    obtain ⟨status, after⟩ := runFix_apply_eq disk enabled
    rw [applied, status, after, ← fixes]
    refine ⟨results, printed, rfl, reaches, rfl, fun result among error failed => ?_⟩
    exact (Session.Reaches.stored separate apart reaches result among).unwritable
      (excused result among) failed
  · intro results printed after reaches
    have taken := (Session.Reaches.frame reaches).documents
    have accounted := (Session.Reaches.balanced reaches separate apart).results
    have stored : ∀ result ∈ results, session.Stored rule disk after result :=
      Session.Reaches.stored separate apart reaches
    have tells := fixStatus_apply_tells results Session.Result.fixes
    refine ⟨by simpa [Session.State.taken, Session.State.finished] using taken.symm, stored,
      ?_, ?_⟩
    · refine tells.congr (forall₂_congr fun result among => ?_) (exists_congr fun result => ?_)
      · exact (accounted result among).quiet_iff (stored result among)
      · exact and_congr_right fun among => (accounted result among).failing_iff
    · rintro ⟨result, among, refused⟩ success
      have none := (Session.Reaches.owns reaches).results result among
        (tells.success_iff.mp success result among)
      exact refused (by simp [Fixes.Unrefused, none])

end Command

namespace Session.Sample

/-- The session that is prepared at the top of a disk has the documents that lie there in order. -/
theorem prepare_of_load {disk : Disk} {settings : Settings} {settingsPath : Option Path}
    {rule : Option Rule} {documents : List Path}
    (loaded : Settings.load disk ⟨"/"⟩ = .ok ⟨settings, settingsPath⟩)
    (configured : settings.rule? = .ok rule) (unfiltered : settings.ignores = [])
    (top : (settingsPath.bind Path.parent?).getD ⟨"/"⟩ = ⟨"/"⟩)
    (found : Listing.under disk (fun path => !({} : Exclusions).excludes ⟨"/"⟩ path) ⟨"/"⟩ =
      ⟨documents, 0⟩)
    (sorted : documents.Pairwise fun a b => a.le b = true)
    (distinct : Listing.dropRepeated documents = documents) :
    prepare disk ⟨"/"⟩ {} =
      .ok { settings, rule, root := ⟨"/"⟩, settingsPath, documents } := by
  -- Sorting is no structural recursion, so it is not left to the kernel.
  have listed : Listing.scan disk ⟨"/"⟩ [] [] = .ok ⟨documents, 0⟩ := by
    simp [Listing.scan, Exclusions.ofPatterns, Listing.tops, found, Listing.inOrder,
      List.mergeSort_of_pairwise sorted, distinct, bind, Except.bind, pure, Except.pure]
  rcases settings with ⟨value, locale, directory, ignores⟩
  obtain rfl : ignores = [] := unfiltered
  delta prepare
  simp only [start, loaded, Except.mapError, bind, Except.bind, Option.getD_none, configured,
    rootOf, top, List.map_nil, listed, pure, Except.pure]

/-- The session that is prepared at the top of a disk without settings. -/
def prepared : Session := { session with rule := some Rule.default }

theorem prepare_refusingDisk : prepare refusingDisk ⟨"/"⟩ {} = .ok prepared := by
  have unset : Settings.find? refusingDisk ⟨"/"⟩ = none := by decide +kernel
  have loaded : Settings.load refusingDisk ⟨"/"⟩ = .ok ⟨{}, none⟩ := by
    rw [Settings.load, unset]
    rfl
  exact prepare_of_load loaded rfl rfl rfl (by decide +kernel) (by decide +kernel)
    (by decide +kernel)

/-- Settings that allow no text, an empty catalog and a document with one bare text. -/
def strictDisk : Disk where
  entries :=
    [([Settings.fileName], .file (.text "\x7b\"rule\":[]\x7d") .full),
     (["translations"], .directory .full),
     (["translations", "en.json"], .file (.text "\x7b\x7d") .full),
     (["a.ast.json"], .file (.text greeting) .full)]

/-- The rule that allows no text. -/
def strictRule : Rule := { Rule.default with allowlist := [] }

/-- The session that is prepared with the settings. -/
def strict : Session where
  settings := { rule := .array [] }
  rule := some strictRule
  root := ⟨"/"⟩
  settingsPath := some ⟨"/.barestringsrc.json"⟩
  documents := [⟨"/a.ast.json"⟩]

theorem prepare_strictDisk : prepare strictDisk ⟨"/"⟩ {} = .ok strict := by
  have found : Settings.find? strictDisk ⟨"/"⟩ = some ⟨"/.barestringsrc.json"⟩ := by decide +kernel
  have read : strictDisk.readText ⟨"/.barestringsrc.json"⟩ = .ok "\x7b\"rule\":[]\x7d" := by
    decide +kernel
  have parsed : Settings.parse "\x7b\"rule\":[]\x7d" = .ok strict.settings := rfl
  have configured : strict.settings.rule? = .ok (some strictRule) := by
    have sorted : Allowlist.longestFirst [] = [] := by simp [Allowlist.longestFirst]
    rw [strictRule, ← sorted]
    rfl
  have loaded : Settings.load strictDisk ⟨"/"⟩ = .ok ⟨strict.settings, strict.settingsPath⟩ := by
    have valid : strict.settings.validate = .ok () := by
      rw [Settings.validate, configured]
      rfl
    simp only [Settings.load, found, read, parsed, valid, Except.mapError, bind, Except.bind]
    rfl
  exact prepare_of_load loaded configured rfl (by decide +kernel) (by decide +kernel)
    (by decide +kernel) (by decide +kernel)

end Session.Sample

namespace Command

open Session (Sample.refusingDisk Sample.prepared Sample.strictDisk Sample.strict)

/-- One document cannot be read, so the run ends with an error, and it has no success to tell. In
another project the only text is replaced and the run succeeds, so the file of the document holds it
with the call in the place of the text. -/
theorem sample_apply_exit :
    (Session.prepare Sample.refusingDisk ⟨"/"⟩ {} = .ok Sample.prepared ∧
      (Sample.prepared.documents.Pairwise fun a b => ¬ Sample.refusingDisk.SameFile a b) ∧
      (∀ path ∈ Sample.prepared.documents,
        ¬ Sample.refusingDisk.SameFile path Sample.prepared.catalog.path) ∧
      (run Sample.refusingDisk ⟨"/"⟩ (.fix {} true)).status = .ok .error) ∧
    Session.prepare Sample.strictDisk ⟨"/"⟩ {} = .ok Sample.strict ∧
      (Sample.strict.documents.Pairwise fun a b => ¬ Sample.strictDisk.SameFile a b) ∧
      (∀ path ∈ Sample.strict.documents,
        ¬ Sample.strictDisk.SameFile path Sample.strict.catalog.path) ∧
      (run Sample.strictDisk ⟨"/"⟩ (.fix {} true)).status = .ok .success ∧
      ∃ fixed : Document, ∃ target text,
        (run Sample.strictDisk ⟨"/"⟩ (.fix {} true)).disk.readText ⟨"/a.ast.json"⟩ =
          .ok fixed.toFileText ∧
        fixed.template.textAt? target = some text ∧ text.chars = "\x7b\x7bt \"a.Hi\"\x7d\x7d" := by
  constructor
  · have separate : Sample.prepared.documents.Pairwise fun a b =>
        ¬ Sample.refusingDisk.SameFile a b := by
      decide +kernel
    have apart : ∀ path ∈ Sample.prepared.documents,
        ¬ Sample.refusingDisk.SameFile path Sample.prepared.catalog.path := by
      decide +kernel
    have prepared := Session.Sample.prepare_refusingDisk
    obtain ⟨⟨results, printed, _, reaches, status, _⟩, runs, _⟩ :=
      apply_exit_tells _ _ _ _ Rule.default prepared rfl separate apart
    obtain ⟨taken, _, tells, _⟩ := runs _ _ _ reaches
    refine ⟨prepared, separate, apart, ?_⟩
    have last : ⟨"/c.ast.json"⟩ ∈ results.map Session.Result.path := by
      rw [taken]
      decide +kernel
    obtain ⟨result, among, path⟩ := List.mem_map.mp last
    have unreadable : Document.Unreadable Sample.refusingDisk result.path := by
      have failed : (Document.load Sample.refusingDisk ⟨"/c.ast.json"⟩).toBool = false := by
        decide +kernel
      rw [path, Document.Unreadable]
      cases loaded : Document.load Sample.refusingDisk ⟨"/c.ast.json"⟩ with
      | error error => exact ⟨error, rfl⟩
      | ok document => simp [loaded, Except.toBool] at failed
    rw [status, tells.error_iff.mpr ⟨result, among, .inl unreadable⟩]
  · have separate : Sample.strict.documents.Pairwise fun a b =>
        ¬ Sample.strictDisk.SameFile a b := by
      decide +kernel
    have apart : ∀ path ∈ Sample.strict.documents,
        ¬ Sample.strictDisk.SameFile path Sample.strict.catalog.path := by
      decide +kernel
    have prepared := Session.Sample.prepare_strictDisk
    have applied : (Sample.strict.applyAll Session.Sample.strictRule Sample.strictDisk).1 =
        [{ filePath := "app/a.hbs", replacements := [Session.Sample.replacement] }] := by
      decide +kernel
    obtain ⟨⟨results, printed, fixes, reaches, status, _⟩, runs, _⟩ :=
      apply_exit_tells _ _ _ _ Session.Sample.strictRule prepared rfl separate apart
    obtain ⟨taken, stored, tells, _⟩ := runs _ _ _ reaches
    rw [fixes, applied] at status tells
    refine ⟨prepared, separate, apart, status, ?_⟩
    obtain ⟨result, rfl, same⟩ := List.map_eq_singleton_iff.mp (fixes.trans applied)
    obtain path : result.path = ⟨"/a.ast.json"⟩ := List.singleton_inj.mp taken
    have done : result.saving = .done := by
      rw [(stored result (List.mem_singleton_self _)).done_iff, same]
      exact List.cons_ne_nil _ _
    obtain ⟨document, fixed, outcome, repaired, _, reported, holds⟩ :=
      (tells.success_iff.mp rfl result (List.mem_singleton_self _)).saved (by simp [done])
    obtain ⟨fixes, fixedBy⟩ := repaired.fixedBy
    rw [fixedBy.replacements, same] at reported
    obtain ⟨fix, rfl, call⟩ := List.map_eq_singleton_iff.mp reported
    obtain ⟨text, _, _, _, now⟩ := fixedBy.replaced fix (List.mem_singleton_self _)
    exact ⟨fixed, fix.target, _, path ▸ holds, now, by rw [call]; rfl⟩

end Command

end TemplateLint
