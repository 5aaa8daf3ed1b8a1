import Mathlib
import TemplateLint.Proofs.Runs

/-! # A plan foretells the fixes

A plan looks at untouched documents and asks of the catalog only whether its file is there. Applying
changes documents and catalog as it goes. The two agree up to what the catalog refuses: the planned
replacements of a document are those made and those refused, and what is left in the plan is what is
left in the end, without the refused. Every target of a finding leads to its text, however many texts
were replaced before, so a refusal is the only reason for a planned replacement not to be made.
-/

namespace TemplateLint

namespace Catalog

/-! ## One document -/

/-- How the replacements planned for a document, and the findings that have none, compare with the
outcome of fixing it. -/
structure Foresees (catalog : Catalog) (filePath : String) (planned : List Replacement)
    (left : List Finding) (outcome : Outcome) : Prop where
  /-- The planned replacements are, in order, those made and those of refused findings. -/
  replacements : Interleaved outcome.replacements
    (outcome.refusals.filterMap fun refusal => catalog.plan? filePath refusal.finding) planned
  refusals : ∀ refusal ∈ outcome.refusals, (catalog.plan? filePath refusal.finding).isSome = true
  /-- The remaining findings are, in order, those without a plan and those refused. -/
  remaining : Interleaved left (outcome.refusals.map Refusal.finding) outcome.remaining

/-- The findings for which nothing can be planned. -/
def unplanned (catalog : Catalog) (filePath : String) (findings : List Finding) : List Finding :=
  findings.filter fun finding => (catalog.plan? filePath finding).isNone

namespace Foresees

variable {catalog : Catalog} {filePath : String} {planned : List Replacement} {left : List Finding}
  {fixing next : Fixing} {finding : Finding}

theorem start (catalog : Catalog) (filePath : String) : catalog.Foresees filePath [] [] {} where
  replacements := .nil
  refusals := by simp
  remaining := .nil

theorem leave (foresees : catalog.Foresees filePath planned left fixing.outcome)
    (finding : Finding) :
    catalog.Foresees filePath planned (left ++ [finding]) (fixing.leave finding).outcome where
  replacements := foresees.replacements
  refusals := foresees.refusals
  remaining := .left finding foresees.remaining

theorem refuse (fixing : Fixing) (foresees : catalog.Foresees filePath planned left fixing.outcome)
    {replacement : Replacement} (plan : catalog.plan? filePath finding = some replacement)
    (error : CatalogError) :
    catalog.Foresees filePath (planned ++ [replacement]) left
      (fixing.refuse finding error).outcome where
  replacements := by
    simp only [Fixing.refuse, List.filterMap_append, List.filterMap_cons, plan, List.filterMap_nil]
    exact .right replacement foresees.replacements
  refusals := by
    intro refusal among
    rcases List.mem_append.mp among with before | here
    · exact foresees.refusals refusal before
    · rw [List.mem_singleton.mp here, plan]
      rfl
  remaining := by
    simp only [Fixing.refuse, List.map_append, List.map_cons, List.map_nil]
    exact .right finding foresees.remaining

theorem replace (fixing : Fixing)
    (foresees : catalog.Foresees filePath planned left fixing.outcome) (target : Address)
    (replacement : Replacement) :
    catalog.Foresees filePath (planned ++ [replacement]) left
      (fixing.replace target replacement).outcome where
  replacements := .left replacement foresees.replacements
  refusals := foresees.refusals
  remaining := foresees.remaining

/-- One more finding whose text is there. -/
theorem deal {findings : List Finding} {printed : List Members}
    (foresees : catalog.Foresees filePath (findings.filterMap (catalog.plan? filePath))
      (catalog.unplanned filePath findings) fixing.outcome)
    (deals : catalog.Deals filePath fixing finding printed next)
    (there : ∀ target, finding.target = some target → fixing.template.textAt? target ≠ none) :
    catalog.Foresees filePath ((findings ++ [finding]).filterMap (catalog.plan? filePath))
      (catalog.unplanned filePath (findings ++ [finding])) next.outcome := by
  rw [unplanned, List.filter_append, List.filterMap_append]
  cases deals with
  | unplanned none =>
    simp only [List.filterMap_cons, none, List.filterMap_nil, List.append_nil, List.filter_cons,
      Option.isNone_none, if_true, List.filter_nil]
    exact foresees.leave finding
  | textless targeted textless => exact absurd textless (there _ targeted)
  | @settled target text replacement _ answer _ _ plan _ =>
    simp only [List.filterMap_cons, plan, List.filterMap_nil, List.filter_cons, Option.isNone_some,
      Bool.false_eq_true, if_false, List.filter_nil, List.append_nil]
    rcases answer with ⟨error | insertion, disk⟩
    · exact foresees.refuse { fixing with disk } plan error
    · exact foresees.replace { fixing with disk } target replacement

end Foresees

/-- Fixing the findings of a template comes to what was planned, if each has its own target and a
text there. -/
theorem fixAll_foresees (catalog : Catalog) (filePath : String) (template : Template)
    (findings : List Finding) (disk : Disk) (distinct : (findings.filterMap Finding.target).Nodup)
    (texts : ∀ finding ∈ findings, ∀ target, finding.target = some target →
      template.textAt? target ≠ none) :
    catalog.Foresees filePath (findings.filterMap (catalog.plan? filePath))
      (catalog.unplanned filePath findings)
      (catalog.fixAll filePath template findings disk).outcome := by
  induction findings using List.reverseRecOn with
  | nil => exact .start catalog filePath
  | append_singleton findings finding ih =>
    have before : (findings.filterMap Finding.target).Nodup := by
      rw [List.filterMap_append] at distinct
      exact distinct.sublist (List.sublist_append_left ..)
    have foresees := ih before fun other among => texts other (List.mem_append_left _ among)
    obtain ⟨fixes, accounts⟩ := catalog.fixAll_accounts filePath template findings disk before
    have last : catalog.fixAll filePath template (findings ++ [finding]) disk =
        catalog.fixOne filePath (catalog.fixAll filePath template findings disk) finding := by
      simp only [fixAll, List.foldl_append, List.foldl_cons, List.foldl_nil]
    obtain ⟨_, deals⟩ := catalog.fixOne_deals filePath
      (catalog.fixAll filePath template findings disk) finding
    rw [← last] at deals
    refine foresees.deal deals fun target targeted => ?_
    -- Replacing texts takes none away.
    rw [accounts.rewritten, Template.textAt?_rewrite, ne_eq, Option.map_eq_none_iff]
    exact texts finding (by simp) target targeted

end Catalog

/-- Fixing a document comes to what was planned for it, whatever is on the disk. -/
theorem Rule.lint_foresees (rule : Rule) (catalog : Catalog) (document : Document) (disk : Disk) :
    catalog.Foresees document.filePath
      ((rule.findings document.template).filterMap (catalog.plan? document.filePath))
      (catalog.unplanned document.filePath (rule.findings document.template))
      (rule.lint (.fix catalog) document disk).2.1 := by
  refine catalog.fixAll_foresees _ _ _ disk (rule.nodup_targets document.template) ?_
  intro finding found target targeted
  obtain ⟨text, there, _⟩ := (rule.mem_findings_targeted _ _ _).mp ⟨found, targeted⟩
  rw [there]
  exact Option.some_ne_none text

/-- Fixing a document changes no file but the catalog. -/
theorem Rule.lint_changesOnly (rule : Rule) (catalog : Catalog) (document : Document)
    (disk : Disk) :
    disk.ChangesOnly (rule.lint (.fix catalog) document disk).2.2 [catalog.path] := by
  have fold (findings : List Finding) (fixing : Catalog.Fixing) : fixing.disk.ChangesOnly
      (findings.foldl (catalog.fixOne document.filePath) fixing).disk [catalog.path] := by
    induction findings generalizing fixing with
    | nil => exact .refl _ _
    | cons finding rest ih =>
      obtain ⟨_, deals⟩ := catalog.fixOne_deals document.filePath fixing finding
      exact deals.changesOnly.trans (ih _)
  exact fold (rule.findings document.template) { template := document.template, disk }

namespace Session

variable {session : Session} {rule : Rule} {disk now : Disk} {path : Path}

/-- Applying the fixes of a document changes no file but the catalog and the document. -/
theorem apply_changesOnly (session : Session) (rule : Rule) (now : Disk) (path : Path) :
    now.ChangesOnly (session.apply rule now path).2 [session.catalog.path, path] := by
  unfold apply
  cases loaded : Document.load now path with
  | error error => exact .refl _ _
  | ok document =>
    have linted := (rule.lint_changesOnly session.catalog document now).mono
      (List.subset_append_left [session.catalog.path] [path])
    dsimp only
    split_ifs
    · exact linted
    · split
      next after saved =>
        have file : (rule.lint (.fix session.catalog) document now).2.2.isFile path = true :=
          (linted.shape.isFile path).trans (Document.isFile_of_load loaded)
        have written : Disk.ChangesOnly _ after [path] :=
          .writeText file (mapError_eq_ok_iff.mp saved)
        exact linted.trans (written.mono (List.subset_append_right [session.catalog.path] [path]))
      next => exact linted

end Session

/-! ## All documents -/

/-- The document was written back, or needed not be. -/
def Fixes.Saved (fixes : Fixes) : Prop := ∀ file error, Issue.unwritable file error ∉ fixes.issues

/-- The catalog refused no text of the document. -/
def Fixes.Unrefused (fixes : Fixes) : Prop :=
  ∀ file location text error, Issue.refused file location text error ∉ fixes.issues

namespace Session

variable {session : Session} {rule : Rule} {disk now : Disk} {path : Path}

/-- How the fixes planned for a document compare with the fixes applied to it: both say that it
cannot be read, or the plan foresees the outcome of fixing it on the disk of that moment. -/
inductive Foretells (session : Session) (rule : Rule) : Fixes → Fixes → Prop where
  | unread (path : Path) (error : DocumentError) :
      Foretells session rule (session.unread path error) (session.unread path error)
  | read (document : Document) (now : Disk) {planned : List Replacement} {left : List Finding}
      (foresees : session.catalog.Foresees document.filePath planned left
        (rule.lint (.fix session.catalog) document now).2.1) :
      Foretells session rule ⟨document.filePath, planned, left.map (.bare document.filePath)⟩
        (written document.filePath (rule.lint (.fix session.catalog) document now).2.1)

/-- Without a refusal the fixes applied are those planned. -/
theorem Foretells.eq_of_unrefused {planned applied : Fixes}
    (foretells : session.Foretells rule planned applied) (unrefused : applied.Unrefused) :
    planned = applied := by
  cases foretells with
  | unread => rfl
  | @read document now planned left foresees =>
    generalize (rule.lint (.fix session.catalog) document now).2.1 = outcome at foresees unrefused
    rcases outcome with ⟨remaining, replacements, _ | ⟨refusal, more⟩⟩
    · have made : replacements = planned := foresees.replacements.left_eq
      have kept : left = remaining := foresees.remaining.left_eq
      rw [← made, kept]
      rfl
    · exact absurd (by simp [written, Refusal.issue]) (unrefused document.filePath refusal.finding.location
        refusal.finding.text refusal.error.message)

theorem plan_of_ready (session : Session) (rule : Rule) {document : Document}
    (ready : disk.isFile session.catalog.path = true)
    (loaded : Document.load disk path = .ok document) :
    session.plan rule disk path =
      ⟨document.filePath,
        (rule.findings document.template).filterMap (session.catalog.plan? document.filePath),
        (session.catalog.unplanned document.filePath (rule.findings document.template)).map
          (.bare document.filePath)⟩ := by
  simp only [plan, loaded, planned?, ready, if_true]
  rfl

/-- The plan made on one disk foretells the fixes applied on another with the same document. -/
theorem apply_foretold (session : Session) (rule : Rule)
    (ready : disk.isFile session.catalog.path = true)
    (same : Document.load now path = Document.load disk path)
    (saved : (session.apply rule now path).1.Saved) :
    session.Foretells rule (session.plan rule disk path) (session.apply rule now path).1 := by
  cases loaded : Document.load disk path with
  | error error =>
    simp only [plan, apply, same, loaded]
    exact .unread path error
  | ok document =>
    have foretells := Foretells.read document now (rule.lint_foresees session.catalog document now)
    rw [session.plan_of_ready rule ready loaded]
    unfold apply at saved ⊢
    rw [same, loaded] at saved ⊢
    dsimp only at saved ⊢
    split_ifs at saved ⊢
    · exact foretells
    · split at saved
      next => exact foretells
      next error failed =>
        exact absurd (by simp [unwritten]) (saved (session.display path) error.root)

/-- The plan foretells the fixes of documents that are taken one after another, by induction on the
documents left. Those taken before have not changed them. -/
theorem applyEach_foretold (session : Session) (rule : Rule)
    (ready : disk.isFile session.catalog.path = true) (documents : List Path)
    (separate : documents.Pairwise fun a b => ¬ disk.SameFile a b)
    (apart : ∀ path ∈ documents, ¬ disk.SameFile path session.catalog.path)
    (shape : disk.SameShape now)
    (same : ∀ path ∈ documents, Document.load now path = Document.load disk path)
    (saved : ∀ fixes ∈ (session.applyEach rule now documents).1, fixes.Saved) :
    List.Forall₂ (session.Foretells rule) (documents.map (session.plan rule disk))
      (session.applyEach rule now documents).1 := by
  induction documents generalizing now with
  | nil => exact .nil
  | cons path rest ih =>
    have changes := session.apply_changesOnly rule now path
    rw [List.pairwise_cons] at separate
    have here := session.apply_foretold rule ready (same path (List.mem_cons_self ..))
      (saved _ (List.mem_cons_self ..))
    refine .cons here (ih separate.2 ?_ (shape.trans changes.shape) ?_ ?_)
    · exact fun other among => apart other (List.mem_cons_of_mem _ among)
    · intro other among
      rw [← same other (List.mem_cons_of_mem _ among)]
      refine Document.load_changesOnly changes fun changed either => ?_
      rw [shape.sameFile]
      rcases List.mem_cons.mp either with rfl | last
      · exact apart other (List.mem_cons_of_mem _ among)
      · obtain rfl := List.mem_singleton.mp last
        exact fun samePath => separate.1 other among samePath.symm
    · exact fun fixes among => saved fixes (List.mem_cons_of_mem _ among)

/-- In a project whose catalog is there, whose documents are different files other than the catalog
and are all written back, the plan foretells the fixes of every document. The fixes of a document
that had no refusal are those planned. -/
theorem plan_foretells_fixes (session : Session) (rule : Rule) (disk : Disk)
    (ready : disk.isFile session.catalog.path = true)
    (separate : session.documents.Pairwise fun a b => ¬ disk.SameFile a b)
    (apart : ∀ path ∈ session.documents, ¬ disk.SameFile path session.catalog.path)
    (saved : ∀ fixes ∈ (session.applyAll rule disk).1, fixes.Saved) :
    List.Forall₂ (fun planned applied =>
        session.Foretells rule planned applied ∧ (applied.Unrefused → planned = applied))
      (session.planAll rule disk) (session.applyAll rule disk).1 := by
  have foretold : List.Forall₂ (session.Foretells rule) (session.planAll rule disk)
      (session.applyAll rule disk).1 :=
    session.applyEach_foretold rule ready session.documents separate apart (.refl disk)
      (fun _ _ => rfl) saved
  exact foretold.imp fun _ _ foretells => ⟨foretells, foretells.eq_of_unrefused⟩

/-- A catalog in which the key of the text of the first document cannot be added, and two more
documents of which the last cannot be read. -/
def Sample.refusingDisk : Disk where
  entries :=
    [(["translations"], .directory .full),
     (["translations", "en.json"], .file (.text "\x7b\"a\":\"A\"\x7d") .full),
     (["a.ast.json"], .file (.text (textDocument "app/a.hbs" "Hi")) .full),
     (["b.ast.json"], .file (.text (textDocument "app/b.hbs" "Hi")) .full),
     (["c.ast.json"], .file (.text "[") .full)]

/-- The first text is refused, the second is replaced, and the third document is not read. -/
def Sample.refusingFixes : List Fixes :=
  [{ filePath := "app/a.hbs"
     issues :=
       [.refused "app/a.hbs" ⟨1, 2⟩ "Hi"
          "cannot add `a.Hi` to /translations/en.json: `a` is not an object",
        .bare "app/a.hbs" Sample.finding] },
   { filePath := "app/b.hbs"
     replacements := [⟨⟨1, 2⟩, "Hi", "b.Hi", "\x7b\x7bt \"b.Hi\"\x7d\x7d"⟩] },
   { filePath := "c.ast.json"
     issues := [.unreadable "c.ast.json" "EOF while parsing a list at line 1 column 1"] }]

theorem plan_foretells_sample_fixes :
    (Sample.session.applyAll Sample.rule Sample.refusingDisk).1 = Sample.refusingFixes ∧
    List.Forall₂ (fun planned applied => Sample.session.Foretells Sample.rule planned applied ∧
        (applied.Unrefused → planned = applied))
      (Sample.session.planAll Sample.rule Sample.refusingDisk) Sample.refusingFixes := by
  have applied :
      (Sample.session.applyAll Sample.rule Sample.refusingDisk).1 = Sample.refusingFixes := by
    decide +kernel
  have saved : ∀ fixes ∈ (Sample.session.applyAll Sample.rule Sample.refusingDisk).1,
      fixes.Saved := by
    rw [applied]
    simp [Sample.refusingFixes, Fixes.Saved]
  refine ⟨applied, ?_⟩
  rw [← applied]
  exact plan_foretells_fixes Sample.session Sample.rule Sample.refusingDisk (by decide +kernel)
    (by decide +kernel) (by decide +kernel) saved

end Session

end TemplateLint
