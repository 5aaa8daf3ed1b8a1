import Mathlib
import TemplateLint.Proofs.Entries
import TemplateLint.Proofs.Runs

/-! # The catalog is written first

A call that a run puts into a document names a key of the catalog. At every moment of a run the
catalog on the disk has an entry for each call in a document that was written back, whichever writes
fail: a text goes into the catalog before its call goes into the document, and no entry is taken out
again. What was printed for the catalog must be read back as it was; that is the only assumption
about its contents.
-/

namespace TemplateLint

namespace Catalog

/-- What is printed for the file is read back as it was. -/
def ReadsBack (members : Members) : Prop := Json.parse (fileText members) = .ok (.object members)

/-- The catalog on a disk has an entry for the text of a replacement, and its key is the one that the
replacement names. -/
def Records (catalog : Catalog) (disk : Disk) (filePath : String) (replacement : Replacement) :
    Prop :=
  ∃ members, catalog.load disk = .ok members ∧
    ((Json.object members).getAt?
      (catalog.segments filePath (Text.trim replacement.source))).isSome = true ∧
    replacement.key = Key.written (catalog.segments filePath (Text.trim replacement.source))

/-! ## Loading -/

/-- The members that were printed and written are those that are loaded. -/
theorem load_of_written {catalog : Catalog} {disk after : Disk} {members : Members}
    (file : disk.isFile catalog.path = true)
    (written : disk.writeText catalog.path (fileText members) = .ok after)
    (readsBack : ReadsBack members) : catalog.load after = .ok members :=
  load_eq_ok_iff.mpr ⟨_, Disk.readText_writeText file written, readsBack⟩

/-- A text goes into the members that are loaded before, and they are loaded with it afterwards. -/
theorem load_of_added {catalog : Catalog} {disk after : Disk} {segments : List String}
    {text : String} {updated : Members}
    (updatedEq : catalog.update disk segments text = .ok (some updated))
    (written : disk.writeText catalog.path (fileText updated) = .ok after)
    (readsBack : ReadsBack updated) :
    ∃ members, catalog.load disk = .ok members ∧ Members.Added text segments members updated ∧
      catalog.load after = .ok updated := by
  obtain ⟨members, loaded, inserted⟩ := load_of_update updatedEq
  exact ⟨members, loaded, Members.added_of_insertAt inserted,
    load_of_written (isFile_of_load loaded) written readsBack⟩

theorem load_changesOnly {catalog : Catalog} {disk after : Disk} {paths : List Path}
    (changes : disk.ChangesOnly after paths)
    (apart : ∀ other ∈ paths, ¬ disk.SameFile catalog.path other) :
    catalog.load after = catalog.load disk := by
  unfold load
  rw [changes.shape.isFile, changes.readText apart]

/-! ## Insertions -/

section

variable {catalog : Catalog} {filePath : String} {replacement : Replacement}

theorem Records.of_load_eq {disk after : Disk} (records : catalog.Records disk filePath replacement)
    (same : catalog.load after = catalog.load disk) :
    catalog.Records after filePath replacement := by
  obtain ⟨members, loaded, present, key⟩ := records
  exact ⟨members, same.trans loaded, present, key⟩

/-- An insertion keeps what the catalog records. -/
theorem Records.insert {segments : List String} {text : String} {disk : Disk}
    {printed : List Members} {answer : Except CatalogError Insertion × Disk}
    (records : catalog.Records disk filePath replacement)
    (inserts : catalog.Inserts segments text disk printed answer)
    (readsBack : ∀ members ∈ printed, ReadsBack members) :
    catalog.Records answer.2 filePath replacement := by
  cases inserts with
  | refused error => exact records
  | existing => exact records
  | @added updated after updatedEq written =>
    obtain ⟨members, loaded, present, key⟩ := records
    obtain ⟨other, alsoLoaded, added, loadedAfter⟩ :=
      load_of_added updatedEq written (readsBack updated (by simp))
    obtain rfl : members = other := Except.ok.inj (loaded.symm.trans alsoLoaded)
    obtain ⟨value, found⟩ := Option.isSome_iff_exists.mp present
    obtain ⟨later, stillFound, _⟩ := added.kept found
    exact ⟨updated, loadedAfter, Option.isSome_iff_exists.mpr ⟨later, stillFound⟩, key⟩

/-- After an insertion that was not refused, the catalog has an entry under the segments. -/
theorem Inserts.getAt? {segments : List String} {text : String} {disk after : Disk}
    {printed : List Members} {insertion : Insertion}
    (inserts : catalog.Inserts segments text disk printed (.ok insertion, after))
    (some : segments ≠ []) (readsBack : ∀ members ∈ printed, ReadsBack members) :
    ∃ members, catalog.load after = .ok members ∧
      ((Json.object members).getAt? segments).isSome = true := by
  cases inserts with
  | existing present =>
    obtain ⟨members, loaded, inserted⟩ := load_of_update present
    exact ⟨members, loaded, Members.getAt?_of_insertAt_none inserted some⟩
  | @added updated _ updatedEq written =>
    obtain ⟨_, _, added, loadedAfter⟩ :=
      load_of_added updatedEq written (readsBack updated (by simp))
    refine ⟨updated, loadedAfter, ?_⟩
    rw [added.getAt?]
    rfl

theorem segments_ne_nil (catalog : Catalog) (filePath text : String) :
    catalog.segments filePath text ≠ [] := by
  simp [segments, Key.segments]

theorem Records.deal {other : String} {fixing next : Fixing} {finding : Finding}
    {printed : List Members} (records : catalog.Records fixing.disk other replacement)
    (deals : catalog.Deals filePath fixing finding printed next)
    (readsBack : ∀ members ∈ printed, ReadsBack members) :
    catalog.Records next.disk other replacement := by
  cases deals with
  | unplanned => exact records
  | textless => exact records
  | settled _ _ _ inserts =>
    rw [Fixing.settle_disk]
    exact records.insert inserts readsBack

/-- A replacement is recorded as soon as it is made, and those made before stay recorded. -/
theorem Deals.records {fixing next : Fixing} {finding : Finding} {printed : List Members}
    (deals : catalog.Deals filePath fixing finding printed next)
    (readsBack : ∀ members ∈ printed, ReadsBack members)
    (recorded : ∀ replacement ∈ fixing.outcome.replacements,
      catalog.Records fixing.disk filePath replacement) :
    ∀ replacement ∈ next.outcome.replacements, catalog.Records next.disk filePath replacement := by
  have kept := fun other before => (recorded other before).deal deals readsBack
  cases deals with
  | unplanned => exact recorded
  | textless => exact recorded
  | @settled target text replacement printed answer _ _ planned inserts =>
    intro other present
    rcases answer with ⟨error | insertion, after⟩
    · exact kept other present
    · rcases List.mem_append.mp present with before | here
      · exact kept other before
      · obtain rfl := List.mem_singleton.mp here
        obtain ⟨_, _, source, key, _⟩ := plan?_eq_some_iff.mp planned
        obtain ⟨members, loaded, found⟩ :=
          inserts.getAt? (catalog.segments_ne_nil _ _) readsBack
        rw [findingSegments, Finding.text, ← source] at found key
        exact ⟨members, loaded, found, key⟩

end

end Catalog

namespace Session

/-! ## Runs -/

/-- What holds of the catalog at every moment of a run: it records the replacements of the documents
that are done with, and those made in the document at hand. -/
structure Recorded (session : Session) (state : State) : Prop where
  results : ∀ result ∈ state.results, ∀ replacement ∈ result.fixes.replacements,
    session.catalog.Records state.disk result.fixes.filePath replacement
  within : ∀ path document fixing findings, state.phase = .within path document fixing findings →
    ∀ replacement ∈ fixing.outcome.replacements,
      session.catalog.Records state.disk document.filePath replacement

/-- The document at hand is another file than the catalog. -/
def Aside (session : Session) (state : State) : Prop :=
  ∀ path document fixing findings, state.phase = .within path document fixing findings →
    ¬ fixing.disk.SameFile session.catalog.path path

theorem Frame.aside {session : Session} {disk : Disk} {state : State}
    (frame : session.Frame disk state)
    (apart : ∀ path ∈ session.documents, ¬ disk.SameFile path session.catalog.path) :
    session.Aside state := by
  intro path document fixing findings here same
  rcases state with ⟨results, printed, phase, rest⟩
  obtain rfl : phase = .within path document fixing findings := here
  exact apart path (by simp [frame.documents, State.taken])
    ((frame.changes.shape.sameFile _ _).mp same).symm

theorem Step.printed_subset {session : Session} {rule : Rule} {state next : State}
    (step : session.Step rule state next) : state.printed ⊆ next.printed := by
  cases step with
  | deal => exact List.subset_append_left ..
  | _ => exact List.Subset.refl _

namespace Recorded

variable {session : Session} {rule : Rule} {disk : Disk} {state next : State}

theorem start (session : Session) (disk : Disk) :
    session.Recorded (session.initial disk) where
  results := by simp [initial]
  within := by simp [initial]

/-- One more result keeps what holds of the catalog, if the catalog is what it was. -/
theorem finish {results : List Result} {result : Result} {printed : List Members}
    {phase : Phase} {after : Disk} {documents rest : List Path}
    (recorded : session.Recorded ⟨results, printed, phase, documents⟩)
    (same : session.catalog.load after =
      session.catalog.load (State.disk ⟨results, printed, phase, documents⟩))
    (here : ∀ replacement ∈ result.fixes.replacements, session.catalog.Records
      (State.disk ⟨results, printed, phase, documents⟩) result.fixes.filePath replacement) :
    session.Recorded ⟨results ++ [result], printed, .between after, rest⟩ where
  results := by
    intro other present replacement replaced
    rcases List.mem_append.mp present with before | last
    · exact (recorded.results other before replacement replaced).of_load_eq same
    · obtain rfl := List.mem_singleton.mp last
      exact (here replacement replaced).of_load_eq same
  within := by simp

theorem step (recorded : session.Recorded state) (frame : session.Frame disk state)
    (aside : session.Aside state) (step : session.Step rule state next)
    (readsBack : ∀ members ∈ next.printed, Catalog.ReadsBack members) :
    session.Recorded next := by
  cases step with
  | unread failed => exact recorded.finish rfl (by simp [unread])
  | begin loaded =>
    refine ⟨recorded.results, ?_⟩
    rintro _ _ _ _ ⟨⟩
    simp
  | deal deals =>
    have readsBackHere := fun members printed =>
      readsBack members (List.mem_append_right _ printed)
    refine ⟨?_, ?_⟩
    · intro result present replacement replaced
      exact (recorded.results result present replacement replaced).deal deals readsBackHere
    · rintro _ _ _ _ ⟨⟩
      exact deals.records readsBackHere (recorded.within _ _ _ _ rfl)
  | unneeded unchanged =>
    exact recorded.finish rfl (recorded.within _ _ _ _ rfl)
  | @saved results printed path document fixing rest after changed saved =>
    refine recorded.finish ?_ (recorded.within _ _ _ _ rfl)
    exact Catalog.load_changesOnly (frame.changesOnly_of_save saved)
      (by simpa [State.disk] using aside _ _ _ _ rfl)
  | unsaved changed error =>
    exact recorded.finish rfl (by simp [unwritten])

end Recorded

section

variable {session : Session} {rule : Rule} {disk : Disk} {state : State}

theorem Reaches.recorded_of_aside (reaches : session.Reaches rule disk state)
    (aside : ∀ state, session.Reaches rule disk state → session.Aside state)
    (readsBack : ∀ members ∈ state.printed, Catalog.ReadsBack members) :
    session.Recorded state := by
  induction reaches with
  | refl => exact .start session disk
  | tail before step ih =>
    have readsBackBefore := fun members printed =>
      readsBack members (step.printed_subset printed)
    exact (ih readsBackBefore).step (Reaches.frame before) (aside _ before) step readsBack

theorem Reaches.recorded (reaches : session.Reaches rule disk state)
    (apart : ∀ path ∈ session.documents, ¬ disk.SameFile path session.catalog.path)
    (readsBack : ∀ members ∈ state.printed, Catalog.ReadsBack members) :
    session.Recorded state :=
  reaches.recorded_of_aside (fun _ reached => (Reaches.frame reached).aside apart) readsBack

end

/-- At every moment of a run over documents none of which is the catalog, the catalog on the disk
records every replacement in a document that was written back, and the other documents are as they
were before the run. Applying all fixes is such a run. -/
theorem runs_write_catalog_first (session : Session) (rule : Rule) (disk : Disk)
    (apart : ∀ path ∈ session.documents, ¬ disk.SameFile path session.catalog.path) :
    (∃ results printed, results.map Result.fixes = (session.applyAll rule disk).1 ∧
      session.Reaches rule disk (.finished results printed (session.applyAll rule disk).2)) ∧
    ∀ state, session.Reaches rule disk state →
      (∀ members ∈ state.printed, Catalog.ReadsBack members) →
      (∀ result ∈ state.results, ∀ replacement ∈ result.fixes.replacements,
        session.catalog.Records state.disk result.fixes.filePath replacement) ∧
      ∀ path ∈ session.documents, (∀ other ∈ state.rewritten, ¬ disk.SameFile path other) →
        state.disk.readText path = disk.readText path := by
  refine ⟨session.applyAll_reaches rule disk, ?_⟩
  intro state reaches readsBack
  refine ⟨(Reaches.recorded reaches apart readsBack).results, ?_⟩
  intro path present untouched
  refine (Reaches.frame reaches).changes.readText fun other changed => ?_
  rcases List.mem_cons.mp changed with rfl | rewritten
  · exact apart path present
  · exact untouched other rewritten

theorem sample_catalog_written_first :
    (∀ path ∈ Sample.session.documents,
      ¬ Sample.disk.SameFile path Sample.session.catalog.path) ∧
    ∃ state, Sample.session.Reaches Sample.rule Sample.disk state ∧
      (∀ members ∈ state.printed, Catalog.ReadsBack members) ∧
      state.rewritten = [⟨"/a.ast.json"⟩] ∧
      ∀ result ∈ state.results, ∀ replacement ∈ result.fixes.replacements,
        Sample.session.catalog.Records state.disk result.fixes.filePath replacement := by
  have apart : ∀ path ∈ Sample.session.documents,
      ¬ Sample.disk.SameFile path Sample.session.catalog.path := by
    decide +kernel
  obtain ⟨state, reaches, printed, rewritten⟩ := Sample.reaches_rewritten
  have readsBack : ∀ members ∈ state.printed, Catalog.ReadsBack members := by
    intro members present
    rw [printed] at present
    obtain rfl := List.mem_singleton.mp present
    rfl
  have holds := (runs_write_catalog_first Sample.session Sample.rule Sample.disk apart).2
  exact ⟨apart, state, reaches, readsBack, rewritten, (holds state reaches readsBack).1⟩

end Session

end TemplateLint
