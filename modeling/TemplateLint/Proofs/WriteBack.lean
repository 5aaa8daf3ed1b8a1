import Mathlib
import TemplateLint.Proofs.Accounting

/-! # Documents are written back

A document in which texts were replaced is written to its file, and the run does not touch that file
again: the documents are different files, none of which is the catalog. So what is written in the
middle of a run is on the disk when the run is over. The file of a document that was not written
back has the text it had before the run.
-/

namespace TemplateLint.Session

/-! ## What a file holds -/

/-- Texts of the document at a path were replaced, which gave another document. -/
structure Repaired (session : Session) (rule : Rule) (disk : Disk) (path : Path)
    (document fixed : Document) (outcome : Outcome) : Prop where
  loaded : Document.load disk path = .ok document
  fixedBy : ∃ fixes, rule.FixedBy session.catalog document fixed outcome fixes
  changed : outcome.replacements ≠ []

/-- What the file of a document holds after a run, by what became of writing it back: the document
with the replacements that are reported, or what it held before the run. -/
inductive Stored (session : Session) (rule : Rule) (disk after : Disk) : Result → Prop where
  | unneeded {path : Path} {fixes : Fixes} (unchanged : fixes.replacements = [])
      (kept : after.readText path = disk.readText path) :
      Stored session rule disk after ⟨path, .unneeded, fixes⟩
  | done {path : Path} {document fixed : Document} {outcome : Outcome}
      (repaired : session.Repaired rule disk path document fixed outcome)
      (holds : after.readText path = .ok fixed.toFileText) :
      Stored session rule disk after ⟨path, .done, written document.filePath outcome⟩
  | failed {path : Path} {document fixed : Document} {outcome : Outcome}
      (repaired : session.Repaired rule disk path document fixed outcome)
      (kept : after.readText path = disk.readText path) (error : DocumentError) :
      Stored session rule disk after
        ⟨path, .failed error, session.unwritten path document.filePath outcome error⟩

variable {session : Session} {rule : Rule} {disk : Disk} {state next : State} {result : Result}

theorem Stored.of_readText {middle after : Disk} (stored : session.Stored rule disk middle result)
    (same : after.readText result.path = middle.readText result.path) :
    session.Stored rule disk after result := by
  cases stored with
  | unneeded unchanged kept => exact .unneeded unchanged (same.trans kept)
  | done repaired holds => exact .done repaired (same.trans holds)
  | failed repaired kept error => exact .failed repaired (same.trans kept) error

/-- Replacements are reported of the documents that were written back. -/
theorem Stored.done_iff {after : Disk} (stored : session.Stored rule disk after result) :
    result.saving = .done ↔ result.fixes.replacements ≠ [] := by
  cases stored with
  | unneeded unchanged => simp [unchanged]
  | done repaired => simpa [written] using repaired.changed
  | failed => simp [unwritten]

/-- When all findings of a document are dealt with and some of them are fixed, its texts are
replaced. -/
theorem Balanced.repaired {results : List Result} {printed : List Members} {path : Path}
    {document : Document} {fixing : Catalog.Fixing} {rest : List Path}
    (balanced : session.Balanced rule disk
      ⟨results, printed, .within path document fixing [], rest⟩)
    (changed : fixing.outcome.replacements ≠ []) :
    session.Repaired rule disk path document { document with template := fixing.template }
      fixing.outcome := by
  obtain ⟨loaded, fixes, accounts⟩ := balanced.accounts
  exact ⟨loaded, ⟨fixes, accounts.fixedBy⟩, changed⟩

/-! ## Runs -/

section

variable (separate : session.documents.Pairwise fun a b => ¬ disk.SameFile a b)
  (apart : ∀ path ∈ session.documents, ¬ disk.SameFile path session.catalog.path)

include separate apart

/-- A step leaves the file of a document alone that the run is done with. -/
theorem Step.readText_taken (step : session.Step rule state next)
    (frame : session.Frame disk state) (taken : result ∈ state.results) :
    next.disk.readText result.path = state.disk.readText result.path := by
  have listed : result.path ∈ state.results.map Result.path := List.mem_map_of_mem taken
  cases step with
  | unread failed => rfl
  | begin loaded => rfl
  | @deal results printed more path document fixing _ finding findings rest deals =>
    apply deals.changesOnly.readText
    intro other changed same
    obtain rfl := List.mem_singleton.mp changed
    refine apart result.path ?_ ((frame.changes.shape.sameFile _ _).mp same)
    rw [frame.documents, State.taken]
    exact List.mem_append_left _ (List.mem_append_left _ listed)
  | unneeded unchanged => rfl
  | @saved results printed path document fixing rest after changed saved =>
    apply (frame.changesOnly_of_save saved).readText
    intro other changed same
    obtain rfl := List.mem_singleton.mp changed
    rw [frame.documents, State.taken, List.append_assoc, List.pairwise_append] at separate
    exact separate.2.2 result.path listed other (List.mem_cons_self ..)
      ((frame.changes.shape.sameFile _ _).mp same)
  | unsaved changed error => rfl

/-- A step keeps what the files of documents hold that the run is done with, and if it is done with
one more document, its file holds what it is to hold. -/
theorem Step.stored (step : session.Step rule state next) (frame : session.Frame disk state)
    (balanced : session.Balanced rule disk state)
    (stored : ∀ result ∈ state.results, session.Stored rule disk state.disk result) :
    ∀ result ∈ next.results, session.Stored rule disk next.disk result := by
  have kept : ∀ result ∈ state.results, session.Stored rule disk next.disk result :=
    fun result taken =>
      (stored result taken).of_readText (step.readText_taken separate apart frame taken)
  have finish {result : Result} (here : session.Stored rule disk next.disk result) :
      ∀ other ∈ state.results ++ [result], session.Stored rule disk next.disk other :=
    List.forall_mem_append.mpr ⟨kept, List.forall_mem_singleton.mpr here⟩
  have order := frame.documents
  have pending {path : Path} {rest : List Path}
      (here : session.documents = state.results.map Result.path ++ path :: rest) :=
    frame.readText_pending separate apart here
  cases step with
  | unread failed => exact finish (.unneeded rfl (pending (by simpa [State.taken] using order)))
  | begin loaded => exact kept
  | deal deals => exact kept
  | unneeded unchanged =>
    exact finish (.unneeded unchanged (pending (by simpa [State.taken] using order)))
  | @saved results printed path document fixing rest after changed saved =>
    have file : fixing.disk.isFile path = true :=
      (frame.changes.shape.isFile path).trans (frame.file _ _ _ _ rfl)
    have holds := Disk.readText_writeText file (mapError_eq_ok_iff.mp saved)
    exact finish (.done (balanced.repaired changed) holds)
  | unsaved changed error =>
    have same := pending (by simpa [State.taken] using order)
    exact finish (.failed (balanced.repaired changed) same error)

/-- At every moment of a run the files of the documents that it is done with hold what they are to
hold. -/
theorem Reaches.stored (reaches : session.Reaches rule disk state) :
    ∀ result ∈ state.results, session.Stored rule disk state.disk result := by
  induction reaches with
  | refl => simp [initial]
  | tail before step stored =>
    exact step.stored separate apart (Reaches.frame before)
      (Reaches.balanced before separate apart) stored

end

/-- Where a document is not written back only if its file cannot be written, this can be told before
the run. -/
theorem Stored.unwritable {after : Disk} {error : DocumentError}
    (stored : session.Stored rule disk after result)
    (excused : result.Excused session rule (session.initial disk))
    (failed : result.saving = .failed error) : Document.Unwritable disk result.path := by
  obtain ⟨state, document, reaches, unsaved⟩ := excused error failed
  cases stored with
  | unneeded => cases failed
  | done => cases failed
  | failed repaired =>
    exact Document.unwritable_of_save (Reaches.frame reaches).changes.shape
      (Document.isFile_of_load repaired.loaded) unsaved

end TemplateLint.Session
