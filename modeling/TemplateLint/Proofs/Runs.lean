import Mathlib
import TemplateLint.Proofs.Files
import TemplateLint.Proofs.Fixing
import TemplateLint.Session.Fixes

/-! # Runs that fix a project

A run takes one document after another: it deals with the findings of a document one by one and then
writes the document back. A step writes one file at most, so the states of a run show the disk after
every prefix of its writes. The catalog may refuse a text and a document may fail to be written at
any point, and then the disk stays as it is. `Session.applyAll` is one of these runs, and what holds
of every state that a run can reach holds of it.
-/

namespace TemplateLint

namespace Catalog

/-! ## The catalog file -/

theorem load_eq_ok_iff {catalog : Catalog} {disk : Disk} {members : Members} :
    catalog.load disk = .ok members ↔
      ∃ text, disk.readText catalog.path = .ok text ∧ Json.parse text = .ok (.object members) := by
  unfold load
  constructor
  · intro loaded
    split_ifs at loaded
    · cases loaded
    · obtain ⟨text, read, rest⟩ := bind_eq_ok_iff.mp loaded
      obtain ⟨value, parsed, object⟩ := bind_eq_ok_iff.mp rest
      refine ⟨text, mapError_eq_ok_iff.mp read, (mapError_eq_ok_iff.mp parsed).trans ?_⟩
      cases value <;> cases object
      rfl
  · rintro ⟨text, read, parsed⟩
    simp [Disk.isFile_of_readText read, read, parsed, Except.mapError, bind, Except.bind, pure,
      Except.pure]

theorem isFile_of_load {catalog : Catalog} {disk : Disk} {members : Members}
    (loaded : catalog.load disk = .ok members) : disk.isFile catalog.path = true := by
  obtain ⟨text, read, _⟩ := load_eq_ok_iff.mp loaded
  exact Disk.isFile_of_readText read

/-- An update adds to the members that the file holds. -/
theorem load_of_update {catalog : Catalog} {disk : Disk} {segments : List String} {text : String}
    {result : Option Members} (updated : catalog.update disk segments text = .ok result) :
    ∃ members, catalog.load disk = .ok members ∧
      Members.insertAt text segments members = .ok result := by
  obtain ⟨members, loaded, inserted⟩ := bind_eq_ok_iff.mp updated
  exact ⟨members, loaded, mapError_eq_ok_iff.mp inserted⟩

/-- An insertion changes no file but the catalog. -/
theorem Inserts.changesOnly {catalog : Catalog} {segments : List String} {text : String}
    {disk : Disk} {printed : List Members} {answer : Except CatalogError Insertion × Disk}
    (inserts : catalog.Inserts segments text disk printed answer) :
    disk.ChangesOnly answer.2 [catalog.path] := by
  cases inserts with
  | refused error => exact .refl disk _
  | existing present => exact .refl disk _
  | added updated written =>
    obtain ⟨members, loaded, _⟩ := load_of_update updated
    exact .writeText (isFile_of_load loaded) written

@[simp]
theorem Fixing.settle_disk (fixing : Fixing) (finding : Finding) (target : Address)
    (replacement : Replacement) (answer : Except CatalogError Insertion × Disk) :
    (fixing.settle finding target replacement answer).disk = answer.2 := by
  rcases answer with ⟨_ | _, _⟩ <;> rfl

/-- Dealing with a finding changes no file but the catalog. -/
theorem Deals.changesOnly {catalog : Catalog} {filePath : String} {fixing next : Fixing}
    {finding : Finding} {printed : List Members}
    (deals : catalog.Deals filePath fixing finding printed next) :
    fixing.disk.ChangesOnly next.disk [catalog.path] := by
  cases deals with
  | unplanned => exact .refl _ _
  | textless => exact .refl _ _
  | settled _ _ _ inserts =>
    rw [Fixing.settle_disk]
    exact inserts.changesOnly

end Catalog

namespace Session

/-! ## Steps -/

/-- What became of writing a document back. -/
inductive Saving where
  /-- There was nothing to write. -/
  | unneeded
  | done
  | failed (error : DocumentError)

/-- A document that a run is done with. -/
structure Result where
  path : Path
  saving : Saving
  fixes : Fixes

/-- Where a run is: between two documents, or at the findings of a document that are left to deal
with. -/
inductive Phase where
  | between (disk : Disk)
  | within (path : Path) (document : Document) (fixing : Catalog.Fixing) (findings : List Finding)

/-- The state of a run. -/
structure State where
  results : List Result := []
  /-- What was printed for the catalog and written to it. -/
  printed : List Members := []
  phase : Phase
  /-- The documents that are left to take. -/
  documents : List Path

namespace State

/-- The disk at a moment of a run. -/
def disk (state : State) : Disk :=
  match state.phase with
  | .between disk => disk
  | .within _ _ fixing _ => fixing.disk

/-- The documents that were taken, in order. -/
def taken (state : State) : List Path :=
  state.results.map Result.path ++
    match state.phase with
    | .between _ => []
    | .within path _ _ _ => [path]

/-- The documents that were written back with texts replaced. -/
def rewritten (state : State) : List Path :=
  (state.results.filter fun result => !result.fixes.replacements.isEmpty).map Result.path

/-- The state of a run that is over. -/
def finished (results : List Result) (printed : List Members) (disk : Disk) : State :=
  { results, printed, phase := .between disk, documents := [] }

end State

/-- The steps of a run. -/
inductive Step (session : Session) (rule : Rule) : State → State → Prop where
  /-- The next document cannot be read. -/
  | unread {results : List Result} {printed : List Members} {disk : Disk} {path : Path}
      {rest : List Path} {error : DocumentError} (failed : Document.load disk path = .error error) :
      Step session rule ⟨results, printed, .between disk, path :: rest⟩
        ⟨results ++ [⟨path, .unneeded, session.unread path error⟩], printed, .between disk, rest⟩
  /-- The next document is read. -/
  | begin {results : List Result} {printed : List Members} {disk : Disk} {path : Path}
      {rest : List Path} {document : Document} (loaded : Document.load disk path = .ok document) :
      Step session rule ⟨results, printed, .between disk, path :: rest⟩
        ⟨results, printed, .within path document { template := document.template, disk }
          (rule.findings document.template), rest⟩
  /-- The next finding of the document is dealt with. -/
  | deal {results : List Result} {printed more : List Members} {path : Path}
      {document : Document} {fixing next : Catalog.Fixing} {finding : Finding}
      {findings : List Finding} {rest : List Path}
      (deals : session.catalog.Deals document.filePath fixing finding more next) :
      Step session rule
        ⟨results, printed, .within path document fixing (finding :: findings), rest⟩
        ⟨results, printed ++ more, .within path document next findings, rest⟩
  /-- Nothing was replaced in the document. -/
  | unneeded {results : List Result} {printed : List Members} {path : Path} {document : Document}
      {fixing : Catalog.Fixing} {rest : List Path}
      (unchanged : fixing.outcome.replacements = []) :
      Step session rule ⟨results, printed, .within path document fixing [], rest⟩
        ⟨results ++ [⟨path, .unneeded, written document.filePath fixing.outcome⟩], printed,
          .between fixing.disk, rest⟩
  /-- The document is written back. -/
  | saved {results : List Result} {printed : List Members} {path : Path} {document : Document}
      {fixing : Catalog.Fixing} {rest : List Path} {disk : Disk}
      (changed : fixing.outcome.replacements ≠ [])
      (saved : { document with template := fixing.template }.save fixing.disk path = .ok disk) :
      Step session rule ⟨results, printed, .within path document fixing [], rest⟩
        ⟨results ++ [⟨path, .done, written document.filePath fixing.outcome⟩], printed,
          .between disk, rest⟩
  /-- Writing the document back fails, for whatever reason. -/
  | unsaved {results : List Result} {printed : List Members} {path : Path} {document : Document}
      {fixing : Catalog.Fixing} {rest : List Path}
      (changed : fixing.outcome.replacements ≠ []) (error : DocumentError) :
      Step session rule ⟨results, printed, .within path document fixing [], rest⟩
        ⟨results ++
            [⟨path, .failed error, session.unwritten path document.filePath fixing.outcome error⟩],
          printed, .between fixing.disk, rest⟩

/-- The state of a run before its first step. -/
def initial (session : Session) (disk : Disk) : State where
  phase := .between disk
  documents := session.documents

/-- A run that starts on a disk comes to a state. -/
def Reaches (session : Session) (rule : Rule) (disk : Disk) (state : State) : Prop :=
  Relation.ReflTransGen (session.Step rule) (session.initial disk) state

/-! ## What a run leaves alone -/

/-- What holds of the files at every moment of a run: documents are taken in order, the document at
hand is a file, and only the catalog and the documents with replacements have changed. -/
structure Frame (session : Session) (disk : Disk) (state : State) : Prop where
  documents : session.documents = state.taken ++ state.documents
  file : ∀ path document fixing findings, state.phase = .within path document fixing findings →
    disk.isFile path = true
  changes : disk.ChangesOnly state.disk (session.catalog.path :: state.rewritten)

namespace Frame

variable {session : Session} {rule : Rule} {disk : Disk} {state next : State}

theorem start (session : Session) (disk : Disk) :
    session.Frame disk (session.initial disk) where
  documents := rfl
  file := by simp [initial]
  changes := .refl disk _

/-- Writing the document at hand back changes no other file. -/
theorem changesOnly_of_save {results : List Result} {printed : List Members} {path : Path}
    {document fixed : Document} {fixing : Catalog.Fixing} {findings : List Finding}
    {rest : List Path} {after : Disk}
    (frame : session.Frame disk
      ⟨results, printed, .within path document fixing findings, rest⟩)
    (saved : fixed.save fixing.disk path = .ok after) : fixing.disk.ChangesOnly after [path] := by
  have file : fixing.disk.isFile path = true :=
    (frame.changes.shape.isFile path).trans (frame.file _ _ _ _ rfl)
  exact .writeText file (mapError_eq_ok_iff.mp saved)

theorem step (frame : session.Frame disk state) (step : session.Step rule state next) :
    session.Frame disk next := by
  cases step with
  | unread failed =>
    refine ⟨?_, by simp, ?_⟩
    · simpa [State.taken] using frame.documents
    · simpa [State.rewritten, State.disk, unread] using frame.changes
  | begin loaded =>
    refine ⟨?_, ?_, ?_⟩
    · simpa [State.taken] using frame.documents
    · rintro path document fixing findings ⟨⟩
      rw [← frame.changes.shape.isFile]
      exact Document.isFile_of_load loaded
    · exact frame.changes
  | deal deals =>
    refine ⟨frame.documents, ?_, ?_⟩
    · rintro path document fixing findings ⟨⟩
      exact frame.file _ _ _ _ rfl
    · exact frame.changes.trans (deals.changesOnly.mono (by simp))
  | unneeded unchanged =>
    refine ⟨?_, by simp, ?_⟩
    · simpa [State.taken] using frame.documents
    · simpa [State.rewritten, State.disk, written, unchanged] using frame.changes
  | @saved results printed path document fixing rest after changed saved =>
    refine ⟨?_, by simp, ?_⟩
    · simpa [State.taken] using frame.documents
    · have more : State.rewritten ⟨results ++ [⟨path, .done, written document.filePath
          fixing.outcome⟩], printed, .between after, rest⟩ =
            State.rewritten ⟨results, printed, .within path document fixing [], rest⟩ ++ [path] := by
        simp [State.rewritten, written, changed]
      rw [more]
      exact (frame.changes.mono (List.cons_subset_cons _ (List.subset_append_left ..))).trans
        ((frame.changesOnly_of_save saved).mono (by simp))
  | unsaved changed error =>
    refine ⟨?_, by simp, ?_⟩
    · simpa [State.taken] using frame.documents
    · simpa [State.rewritten, State.disk, unwritten] using frame.changes

end Frame

theorem Reaches.frame {session : Session} {rule : Rule} {disk : Disk} {state : State}
    (reaches : session.Reaches rule disk state) : session.Frame disk state := by
  induction reaches with
  | refl => exact .start session disk
  | tail _ step frame => exact frame.step step

/-! ## The run of the command -/

/-- If a document could not be written back, a run came to a moment at which its file could not be
written. -/
def Result.Excused (session : Session) (rule : Rule) (start : State) (result : Result) : Prop :=
  ∀ error, result.saving = .failed error → ∃ state, ∃ document : Document,
    Relation.ReflTransGen (session.Step rule) start state ∧
      document.save state.disk result.path = .error error

section

open Relation (ReflTransGen)

variable (session : Session) (rule : Rule)

private theorem foldl_fixOne_steps (results : List Result) (printed : List Members) (path : Path)
    (document : Document) (fixing : Catalog.Fixing) (findings : List Finding) (rest : List Path) :
    ∃ more, ReflTransGen (session.Step rule)
      ⟨results, printed, .within path document fixing findings, rest⟩
      ⟨results, printed ++ more, .within path document
        (findings.foldl (session.catalog.fixOne document.filePath) fixing) [], rest⟩ := by
  induction findings generalizing fixing printed with
  | nil => exact ⟨[], by rw [List.append_nil]; exact .refl⟩
  | cons finding findings ih =>
    obtain ⟨first, deals⟩ := session.catalog.fixOne_deals document.filePath fixing finding
    obtain ⟨more, steps⟩ := ih (printed ++ first)
      (session.catalog.fixOne document.filePath fixing finding)
    refine ⟨first ++ more, ?_⟩
    rw [List.append_assoc] at steps
    exact steps.head (.deal deals)

private theorem apply_steps (results : List Result) (printed : List Members) (disk : Disk)
    (path : Path) (rest : List Path) :
    ∃ result more, result.fixes = (session.apply rule disk path).1 ∧
      ReflTransGen (session.Step rule) ⟨results, printed, .between disk, path :: rest⟩
        ⟨results ++ [result], printed ++ more, .between (session.apply rule disk path).2, rest⟩ ∧
      result.Excused session rule ⟨results, printed, .between disk, path :: rest⟩ := by
  unfold apply
  cases loaded : Document.load disk path with
  | error error =>
    refine ⟨⟨path, .unneeded, session.unread path error⟩, [], rfl, ?_, by simp [Result.Excused]⟩
    rw [List.append_nil]
    exact .single (.unread loaded)
  | ok document =>
    obtain ⟨more, steps⟩ := foldl_fixOne_steps session rule results printed path document
      { template := document.template, disk } (rule.findings document.template) rest
    have start := steps.head (.begin loaded)
    dsimp only [Rule.lint, Rule.fix, Catalog.fixAll]
    split_ifs with unchanged
    · exact ⟨_, more, rfl, start.tail (.unneeded (List.isEmpty_iff.mp unchanged)),
        by simp [Result.Excused]⟩
    · have changed := mt List.isEmpty_iff.mpr unchanged
      split
      next after saved =>
        exact ⟨_, more, rfl, start.tail (.saved changed saved), by simp [Result.Excused]⟩
      next error failed =>
        refine ⟨_, more, rfl, start.tail (.unsaved changed error), ?_⟩
        rintro _ ⟨⟩
        exact ⟨_, _, start, failed⟩

private theorem applyEach_steps (results : List Result) (printed : List Members) (disk : Disk)
    (documents : List Path) :
    ∃ others more, others.map Result.fixes = (session.applyEach rule disk documents).1 ∧
      ReflTransGen (session.Step rule) ⟨results, printed, .between disk, documents⟩
        (.finished (results ++ others) (printed ++ more)
          (session.applyEach rule disk documents).2) ∧
      ∀ other ∈ others,
        other.Excused session rule ⟨results, printed, .between disk, documents⟩ := by
  induction documents generalizing results printed disk with
  | nil =>
    refine ⟨[], [], rfl, ?_, by simp⟩
    rw [List.append_nil, List.append_nil]
    exact .refl
  | cons path rest ih =>
    obtain ⟨result, first, fixes, steps, excused⟩ :=
      apply_steps session rule results printed disk path rest
    obtain ⟨others, more, otherFixes, otherSteps, otherExcused⟩ :=
      ih (results ++ [result]) (printed ++ first) (session.apply rule disk path).2
    refine ⟨result :: others, first ++ more, ?_, ?_, List.forall_mem_cons.mpr ⟨excused, ?_⟩⟩
    · rw [List.map_cons, fixes, otherFixes]
      rfl
    · rw [List.append_assoc, List.append_assoc] at otherSteps
      exact steps.trans otherSteps
    · intro other among error failed
      obtain ⟨state, document, later, unsaved⟩ := otherExcused other among error failed
      exact ⟨state, document, steps.trans later, unsaved⟩

/-- Applying the fixes of a project is a run that takes all documents, and a document is not written
back only if its file cannot be written. -/
theorem applyAll_excused (disk : Disk) :
    ∃ results printed, results.map Result.fixes = (session.applyAll rule disk).1 ∧
      session.Reaches rule disk (.finished results printed (session.applyAll rule disk).2) ∧
      ∀ result ∈ results, result.Excused session rule (session.initial disk) :=
  applyEach_steps session rule [] [] disk session.documents

theorem applyAll_reaches (disk : Disk) :
    ∃ results printed, results.map Result.fixes = (session.applyAll rule disk).1 ∧
      session.Reaches rule disk (.finished results printed (session.applyAll rule disk).2) := by
  obtain ⟨results, printed, fixes, reaches, -⟩ := applyAll_excused session rule disk
  exact ⟨results, printed, fixes, reaches⟩

end

/-! ## A small project -/

namespace Sample

/-- A document with one bare text. -/
def greeting : String :=
  "\x7b\"filePath\":\"app/a.hbs\",\"template\":\x7b\"body\":[\x7b\"type\":\"TextNode\"," ++
    "\"chars\":\"Hi\",\"loc\":[1,2]\x7d]\x7d\x7d"

/-- A document with one text. -/
def textDocument (filePath text : String) : String :=
  "\x7b\"filePath\":\"" ++ filePath ++ "\",\"template\":\x7b\"body\":[\x7b\"type\":\"TextNode\"," ++
    "\"chars\":\"" ++ text ++ "\",\"loc\":[1,2]\x7d]\x7d\x7d"

/-- An empty catalog, a document that can be written, one that can only be read, and one that is no
document. -/
def disk : Disk where
  entries :=
    [(["translations"], .directory .full),
     (["translations", "en.json"], .file (.text "\x7b\x7d") .full),
     (["a.ast.json"], .file (.text greeting) .full),
     (["b.ast.json"], .file (.text greeting) .readOnly),
     (["c.ast.json"], .file (.text "[") .full)]

/-- The session of the project. -/
def session : Session where
  settings := {}
  rule := none
  root := ⟨"/"⟩
  settingsPath := none
  documents := [⟨"/a.ast.json"⟩, ⟨"/b.ast.json"⟩, ⟨"/c.ast.json"⟩]

/-- The rule without allowed texts. -/
def rule : Rule := ⟨[], [], []⟩

/-- The text of the first document is replaced, that of the second is found again. -/
example : (session.applyAll rule disk).1 =
    [{ filePath := "app/a.hbs"
       replacements := [⟨⟨1, 2⟩, "Hi", "a.Hi", "\x7b\x7bt \"a.Hi\"\x7d\x7d"⟩] },
     { filePath := "app/a.hbs"
       issues :=
         [.unwritable "b.ast.json" "Permission denied (os error 13)",
          .bare "app/a.hbs" ⟨"Hi", ⟨1, 2⟩, none, none⟩] },
     { filePath := "c.ast.json"
       issues := [.unreadable "c.ast.json" "EOF while parsing a list at line 1 column 1"] }] := by
  decide +kernel

/-- The bare text of the first document. -/
def finding : Finding := ⟨"Hi", ⟨1, 2⟩, none, some [.child 0]⟩

/-- The replacement of the bare text. -/
def replacement : Replacement := ⟨⟨1, 2⟩, "Hi", "a.Hi", "\x7b\x7bt \"a.Hi\"\x7d\x7d"⟩

/-- What is printed for the catalog when the bare text is added. -/
def members : Members := [("a", .object [("Hi", .string "Hi")])]

/-- The disk with the bare text in the catalog. -/
def recorded : Disk :=
  disk.put ["translations", "en.json"] (.file (.text (Catalog.fileText members)) .full)

private theorem inserts :
    session.catalog.Inserts (session.catalog.findingSegments "app/a.hbs" finding) finding.text disk
      [members] (.ok .added, recorded) := by
  have loaded : session.catalog.load disk = .ok [] :=
    Catalog.load_eq_ok_iff.mpr ⟨"\x7b\x7d", by decide +kernel, rfl⟩
  have segments : session.catalog.findingSegments "app/a.hbs" finding = ["a", "Hi"] := by
    decide +kernel
  have text : finding.text = "Hi" := by decide +kernel
  have found : disk.find session.catalog.path =
      .ok (.present ["translations", "en.json"] (.file (.text "\x7b\x7d") .full)) := by
    decide +kernel
  refine .added ?_ (Disk.writeText_of_find found _)
  rw [segments, text, Catalog.update, loaded]
  rfl

/-- A run comes to a state in which the first document is written back. -/
theorem reaches_rewritten :
    ∃ state, session.Reaches rule disk state ∧ state.printed = [members] ∧
      state.rewritten = [⟨"/a.ast.json"⟩] := by
  -- Templates have no decidable equality, so the document is known by what the run asks of it.
  have facts : ((Document.load disk ⟨"/a.ast.json"⟩).toOption.map fun document =>
      (document.filePath, rule.findings document.template,
        (document.template.textAt? [.child 0]).isSome)) =
      some ("app/a.hbs", [finding], true) := by
    decide +kernel
  cases loaded : Document.load disk ⟨"/a.ast.json"⟩ with
  | error error => simp [loaded, Except.toOption] at facts
  | ok document =>
    simp only [loaded, Except.toOption, Option.map_some, Option.some.injEq, Prod.mk.injEq] at facts
    obtain ⟨filePath, findings, present⟩ := facts
    obtain ⟨text, there⟩ := Option.isSome_iff_exists.mp present
    have planned : session.catalog.plan? "app/a.hbs" finding = some replacement := by
      decide +kernel
    rw [← filePath] at planned
    have inserted := inserts
    rw [← filePath] at inserted
    have deals : session.catalog.Deals document.filePath { template := document.template, disk }
        finding [members] _ := .settled rfl there planned inserted
    have found : recorded.find ⟨"/a.ast.json"⟩ =
        .ok (.present ["a.ast.json"] (.file (.text greeting) .full)) := by
      decide +kernel
    have begun : session.Step rule (session.initial disk) _ := .begin loaded
    rw [findings] at begun
    have saved (fixed : Document) : fixed.save recorded ⟨"/a.ast.json"⟩ =
        .ok (recorded.put ["a.ast.json"] (.file (.text fixed.toFileText) .full)) :=
      mapError_eq_ok_iff.mpr (Disk.writeText_of_find found fixed.toFileText)
    have run := ((Relation.ReflTransGen.single begun).tail (.deal deals)).tail
      (.saved (List.cons_ne_nil _ _) (saved _))
    exact ⟨_, run, rfl, rfl⟩

end Sample

end Session

end TemplateLint
