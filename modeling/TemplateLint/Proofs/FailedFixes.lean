import Mathlib
import TemplateLint.Proofs.Runs

/-! # Failed fixes leave no trace

A finding that comes to no replacement, for whatever reason, leaves the template and the whole disk
as they were; only the outcome knows of it. What is done about the next finding depends on the
template and the disk alone. So fixing a list of findings, and fixing those of them that were fixed,
come to the same template, the same disk and the same replacements. Nothing is asked of findings:
they may be no findings of the template, and may repeat.
-/

namespace TemplateLint

namespace Interleaved

variable {α : Type} {first second whole : List α}

theorem cons_left (item : α) (parts : Interleaved first second whole) :
    Interleaved (item :: first) second (item :: whole) := by
  induction parts with
  | nil => exact .left item .nil
  | left other _ ih => exact .left other ih
  | right other _ ih => exact .right other ih

theorem cons_right (item : α) (parts : Interleaved first second whole) :
    Interleaved first (item :: second) (item :: whole) := by
  induction parts with
  | nil => exact .right item .nil
  | left other _ ih => exact .left other ih
  | right other _ ih => exact .right other ih

end Interleaved

namespace Catalog

/-! ## One finding -/

/-- Two states of fixing that differ at most in the findings that are left and refused. -/
structure Fixing.Agrees (fixing other : Fixing) : Prop where
  template : fixing.template = other.template
  disk : fixing.disk = other.disk
  replacements : fixing.outcome.replacements = other.outcome.replacements

namespace Fixing.Agrees

variable {fixing middle other : Fixing}

theorem trans (first : fixing.Agrees middle) (second : middle.Agrees other) :
    fixing.Agrees other where
  template := first.template.trans second.template
  disk := first.disk.trans second.disk
  replacements := first.replacements.trans second.replacements

theorem leave (agrees : fixing.Agrees other) (finding : Finding) :
    (fixing.leave finding).Agrees (other.leave finding) :=
  ⟨agrees.template, agrees.disk, agrees.replacements⟩

theorem settle (agrees : fixing.Agrees other) (finding : Finding) (target : Address)
    (replacement : Replacement) (answer : Except CatalogError Insertion × Disk) :
    (fixing.settle finding target replacement answer).Agrees
      (other.settle finding target replacement answer) := by
  rcases answer with ⟨error | insertion, disk⟩
  · exact ⟨agrees.template, rfl, agrees.replacements⟩
  · refine ⟨?_, rfl, ?_⟩
    · exact congrArg (fun template => Template.setTextAt template target replacement.call)
        agrees.template
    · exact congrArg (· ++ [replacement]) agrees.replacements

/-- What is done about a finding depends on the template and the disk. -/
theorem fixOne (agrees : fixing.Agrees other) (catalog : Catalog) (filePath : String)
    (finding : Finding) :
    (catalog.fixOne filePath fixing finding).Agrees (catalog.fixOne filePath other finding) := by
  unfold Catalog.fixOne
  rw [agrees.template, agrees.disk]
  split
  · split_ifs
    · exact agrees.leave finding
    · exact agrees.settle finding _ _ _
  · exact agrees.leave finding

end Fixing.Agrees

/-- Whether fixing a finding comes to a replacement. -/
def isFixed (catalog : Catalog) (filePath : String) (fixing : Fixing) (finding : Finding) : Bool :=
  (catalog.fixOne filePath fixing finding).outcome.replacements ≠ fixing.outcome.replacements

section

variable {catalog : Catalog} {filePath : String} {fixing other next : Fixing} {finding : Finding}

theorem Fixing.Agrees.isFixed_eq (agrees : fixing.Agrees other) :
    catalog.isFixed filePath fixing finding = catalog.isFixed filePath other finding := by
  unfold isFixed
  rw [(agrees.fixOne catalog filePath finding).replacements, agrees.replacements]

/-- One more finding is left, and nothing else happened to the template, to any file or to the
replacements. -/
structure Fixing.Keeps (fixing next : Fixing) (finding : Finding) : Prop extends
    next.Agrees fixing where
  remaining : next.outcome.remaining = fixing.outcome.remaining ++ [finding]

/-- One more text is replaced, and no finding is left or refused. -/
structure Fixing.Gains (fixing next : Fixing) : Prop where
  replacements : ∃ replacement,
    next.outcome.replacements = fixing.outcome.replacements ++ [replacement]
  remaining : next.outcome.remaining = fixing.outcome.remaining
  refusals : next.outcome.refusals = fixing.outcome.refusals

/-- Whatever the catalog answers, a finding is left or fixed. -/
theorem Deals.keeps_or_gains {printed : List Members}
    (deals : catalog.Deals filePath fixing finding printed next) :
    fixing.Keeps next finding ∨ fixing.Gains next := by
  cases deals with
  | unplanned => exact .inl ⟨⟨rfl, rfl, rfl⟩, rfl⟩
  | textless => exact .inl ⟨⟨rfl, rfl, rfl⟩, rfl⟩
  | @settled _ _ replacement _ _ _ _ _ inserts =>
    cases inserts with
    | refused error => exact .inl ⟨⟨rfl, rfl, rfl⟩, rfl⟩
    | existing => exact .inr ⟨⟨replacement, rfl⟩, rfl, rfl⟩
    | added => exact .inr ⟨⟨replacement, rfl⟩, rfl, rfl⟩

/-- A finding that comes to no replacement changes neither template nor disk. -/
theorem keeps_of_not_isFixed (unfixed : catalog.isFixed filePath fixing finding = false) :
    fixing.Keeps (catalog.fixOne filePath fixing finding) finding := by
  obtain ⟨_, deals⟩ := catalog.fixOne_deals filePath fixing finding
  rcases deals.keeps_or_gains with keeps | gains
  · exact keeps
  · obtain ⟨replacement, more⟩ := gains.replacements
    simp [isFixed, more] at unfixed

theorem gains_of_isFixed (fixed : catalog.isFixed filePath fixing finding = true) :
    fixing.Gains (catalog.fixOne filePath fixing finding) := by
  obtain ⟨_, deals⟩ := catalog.fixOne_deals filePath fixing finding
  rcases deals.keeps_or_gains with keeps | gains
  · simp [isFixed, keeps.replacements] at fixed
  · exact gains

/-- A finding comes to a replacement if one can be planned, its text is there, and the catalog does
not answer with an error. -/
theorem isFixed_iff :
    catalog.isFixed filePath fixing finding = true ↔
      ∃ target replacement insertion, finding.target = some target ∧
        catalog.plan? filePath finding = some replacement ∧
        (fixing.template.textAt? target).isSome = true ∧
        (catalog.insert (catalog.findingSegments filePath finding) finding.text fixing.disk).1 =
          .ok insertion := by
  rw [isFixed, decide_eq_true_iff, fixOne]
  split
  next target replacement targeted planned =>
    generalize catalog.insert _ _ _ = answer
    cases there : fixing.template.textAt? target with
    | none => simp [targeted, there, Fixing.leave]
    | some text =>
      rcases answer with ⟨error | insertion, disk⟩
      · simp [Fixing.settle, Fixing.refuse]
      · simp [targeted, planned, there, Fixing.settle, Fixing.replace]
  next unplanned =>
    simp only [Fixing.leave, ne_eq, not_true_eq_false, false_iff, not_exists]
    rintro target replacement insertion ⟨targeted, planned, _⟩
    exact unplanned target replacement targeted planned

end

/-! ## All findings -/

/-- The findings that come to a replacement when findings are fixed one after another. -/
def fixedAmong (catalog : Catalog) (filePath : String) : Fixing → List Finding → List Finding
  | _, [] => []
  | fixing, finding :: rest =>
    let others := catalog.fixedAmong filePath (catalog.fixOne filePath fixing finding) rest
    if catalog.isFixed filePath fixing finding then finding :: others else others

section

variable (catalog : Catalog) (filePath : String)

/-- The findings are those that come to a replacement and those that are left, in order. -/
theorem fixedAmong_interleaved (fixing : Fixing) (findings : List Finding) :
    ∃ left, (findings.foldl (catalog.fixOne filePath) fixing).outcome.remaining =
        fixing.outcome.remaining ++ left ∧
      Interleaved (catalog.fixedAmong filePath fixing findings) left findings := by
  induction findings generalizing fixing with
  | nil => exact ⟨[], (List.append_nil _).symm, .nil⟩
  | cons finding rest ih =>
    obtain ⟨left, remaining, parts⟩ := ih (catalog.fixOne filePath fixing finding)
    rw [List.foldl_cons, remaining, fixedAmong]
    cases fixed : catalog.isFixed filePath fixing finding with
    | true =>
      exact ⟨left, by rw [(gains_of_isFixed fixed).remaining], parts.cons_left finding⟩
    | false =>
      have keeps := keeps_of_not_isFixed fixed
      exact ⟨finding :: left, by rw [keeps.remaining, List.append_assoc]; rfl,
        parts.cons_right finding⟩

variable {fixing other : Fixing}

/-- Findings that come to no replacement may be taken out. The two runs agree before every finding
that comes to one, so it is dealt with alike in both. -/
theorem Fixing.Agrees.foldl_fixedAmong (agrees : fixing.Agrees other) (findings : List Finding) :
    (findings.foldl (catalog.fixOne filePath) fixing).Agrees
      ((catalog.fixedAmong filePath fixing findings).foldl (catalog.fixOne filePath) other) := by
  induction findings generalizing fixing other with
  | nil => exact agrees
  | cons finding rest ih =>
    rw [List.foldl_cons, fixedAmong]
    cases fixed : catalog.isFixed filePath fixing finding with
    | true => exact ih (agrees.fixOne catalog filePath finding)
    | false => exact ih ((keeps_of_not_isFixed fixed).toAgrees.trans agrees)

/-- What came to a replacement comes to one again, so nothing is left or refused. -/
theorem Fixing.Agrees.findings_fixedAmong (agrees : fixing.Agrees other)
    (findings : List Finding) :
    let again := (catalog.fixedAmong filePath fixing findings).foldl (catalog.fixOne filePath) other
    again.outcome.remaining = other.outcome.remaining ∧
      again.outcome.refusals = other.outcome.refusals := by
  induction findings generalizing fixing other with
  | nil => exact ⟨rfl, rfl⟩
  | cons finding rest ih =>
    rw [fixedAmong]
    cases fixed : catalog.isFixed filePath fixing finding with
    | true =>
      have gains := gains_of_isFixed (agrees.isFixed_eq ▸ fixed)
      obtain ⟨remaining, refusals⟩ := ih (agrees.fixOne catalog filePath finding)
      exact ⟨remaining.trans gains.remaining, refusals.trans gains.refusals⟩
    | false => exact ih ((keeps_of_not_isFixed fixed).toAgrees.trans agrees)

end

/-- A finding is fixed if a replacement can be planned, its text is there and the catalog does not
refuse it. Otherwise the template and all files are as before. The findings of a list that are fixed
come to the same template, the same files and the same replacements by themselves as within the
list, and none of them is left. -/
theorem failed_fixes_leave_no_trace (catalog : Catalog) (filePath : String) :
    (∀ fixing finding,
      (catalog.isFixed filePath fixing finding = true ↔
        ∃ target replacement insertion, finding.target = some target ∧
          catalog.plan? filePath finding = some replacement ∧
          (fixing.template.textAt? target).isSome = true ∧
          (catalog.insert (catalog.findingSegments filePath finding) finding.text fixing.disk).1 =
            .ok insertion) ∧
      (catalog.isFixed filePath fixing finding = false →
        (catalog.fixOne filePath fixing finding).template = fixing.template ∧
        (catalog.fixOne filePath fixing finding).disk = fixing.disk)) ∧
    ∀ template findings disk,
      let whole := catalog.fixAll filePath template findings disk
      let fixed := catalog.fixedAmong filePath { template, disk } findings
      let again := catalog.fixAll filePath template fixed disk
      Interleaved fixed whole.outcome.remaining findings ∧
        again.template = whole.template ∧ again.disk = whole.disk ∧
        again.outcome.replacements = whole.outcome.replacements ∧
        again.outcome.remaining = [] ∧ again.outcome.refusals = [] := by
  refine ⟨fun fixing finding => ⟨isFixed_iff, fun unfixed => ?_⟩, fun template findings disk => ?_⟩
  · have keeps := keeps_of_not_isFixed unfixed
    exact ⟨keeps.template, keeps.disk⟩
  · have same : Fixing.Agrees { template, disk } { template, disk } := ⟨rfl, rfl, rfl⟩
    obtain ⟨left, remaining, parts⟩ := catalog.fixedAmong_interleaved filePath { template, disk }
      findings
    have agrees := same.foldl_fixedAmong catalog filePath findings
    have nothing := same.findings_fixedAmong catalog filePath findings
    obtain rfl : left = (catalog.fixAll filePath template findings disk).outcome.remaining :=
      remaining.symm
    exact ⟨parts, agrees.template.symm, agrees.disk.symm, agrees.replacements.symm, nothing⟩

end Catalog

namespace Session.Sample

/-- The template of the first document. -/
def template : Template := ⟨[.text ⟨"Hi", some ⟨1, 2⟩, []⟩], []⟩

/-- A finding in an attribute, which is no text of the body. -/
def titleFinding : Finding := ⟨"Hi", ⟨1, 2⟩, some "title", none⟩

end Session.Sample

namespace Catalog

open Session

/-- Without a catalog nothing changes. With one, the finding in the attribute leaves no trace. -/
theorem sample_failures_leave_no_trace :
    Sample.session.catalog.isFixed "app/a.hbs" { template := Sample.template, disk := {} }
        Sample.finding = false ∧
    (Sample.session.catalog.fixOne "app/a.hbs" { template := Sample.template, disk := {} }
      Sample.finding).template = Sample.template ∧
    Sample.session.catalog.fixedAmong "app/a.hbs"
        { template := Sample.template, disk := Sample.disk } [Sample.titleFinding, Sample.finding] =
      [Sample.finding] ∧
    (Sample.session.catalog.fixAll "app/a.hbs" Sample.template [Sample.finding] Sample.disk).disk =
      (Sample.session.catalog.fixAll "app/a.hbs" Sample.template
        [Sample.titleFinding, Sample.finding] Sample.disk).disk := by
  have refused : Sample.session.catalog.isFixed "app/a.hbs"
      { template := Sample.template, disk := {} } Sample.finding = false := by
    decide +kernel
  have fixed : Sample.session.catalog.fixedAmong "app/a.hbs"
      { template := Sample.template, disk := Sample.disk } [Sample.titleFinding, Sample.finding] =
        [Sample.finding] := by
    decide +kernel
  obtain ⟨one, all⟩ := failed_fixes_leave_no_trace Sample.session.catalog "app/a.hbs"
  obtain ⟨_, _, disk, _⟩ := all Sample.template [Sample.titleFinding, Sample.finding] Sample.disk
  rw [fixed] at disk
  exact ⟨refused, ((one _ _).2 refused).1, fixed, disk⟩

end Catalog

end TemplateLint
