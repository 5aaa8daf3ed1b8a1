import Mathlib
import TemplateLint.Proofs.Calls
import TemplateLint.Proofs.FailedFixes

/-! # What becomes of each finding

Every finding that is dealt with is either fixed or left, and a refused one is left too. This holds
of any findings, on any template. For the findings of the template itself more can be said: their
texts are still there when their turn comes, however many texts were replaced before. So a finding
is left for one of three reasons, that it is no text of the body, that its key cannot be quoted, or
that the catalog answered with an error.
-/

namespace TemplateLint

/-! ## Nothing planned -/

namespace Catalog

variable {catalog : Catalog} {filePath : String} {fixing next : Fixing} {finding : Finding}

/-- A key that holds quotes of both kinds. -/
def Unquotable (catalog : Catalog) (filePath : String) (finding : Finding) : Prop :=
  '"' ∈ (Key.written (catalog.findingSegments filePath finding)).toList ∧
    '\x27' ∈ (Key.written (catalog.findingSegments filePath finding)).toList

theorem plan?_eq_none_iff :
    catalog.plan? filePath finding = none ↔
      finding.target = none ∨ catalog.Unquotable filePath finding := by
  rw [Unquotable, ← Helper.call?_eq_none_iff]
  cases targeted : finding.target with
  | none => simp [plan?, targeted]
  | some target =>
    cases called : Helper.call? (Key.written (catalog.findingSegments filePath finding)) <;>
      simp [plan?, targeted, called]

/-! ## One finding -/

/-- Dealing with a finding adds at most its own refusal, and leaves it then. -/
theorem Deals.refusals {printed : List Members}
    (deals : catalog.Deals filePath fixing finding printed next) :
    next.outcome.refusals = fixing.outcome.refusals ∨
      ∃ error, next.outcome.refusals = fixing.outcome.refusals ++ [⟨finding, error⟩] ∧
        next.outcome.remaining = fixing.outcome.remaining ++ [finding] ∧
        (catalog.plan? filePath finding).isSome = true := by
  cases deals with
  | unplanned => exact .inl rfl
  | textless => exact .inl rfl
  | @settled _ _ replacement _ answer _ _ planned _ =>
    rcases answer with ⟨error | insertion, disk⟩
    · exact .inr ⟨error, rfl, rfl, by rw [planned]; rfl⟩
    · exact .inl rfl

/-- A finding with a plan whose text is there is offered to the catalog. -/
theorem fixOne_eq_settle {target : Address} {replacement : Replacement}
    (targeted : finding.target = some target)
    (planned : catalog.plan? filePath finding = some replacement)
    (there : (fixing.template.textAt? target).isSome = true) :
    catalog.fixOne filePath fixing finding =
      fixing.settle finding target replacement (catalog.insert
        (catalog.findingSegments filePath finding) finding.text fixing.disk) := by
  have missing : ¬ (fixing.template.textAt? target).isNone = true := by
    simpa [Option.isSome_iff_ne_none] using there
  rw [fixOne, targeted, planned]
  exact if_neg missing

/-- A finding that comes to a replacement comes to the planned one, in the place of its text. -/
theorem exists_replacement_of_isFixed (fixed : catalog.isFixed filePath fixing finding = true) :
    ∃ target replacement, finding.target = some target ∧
      catalog.plan? filePath finding = some replacement ∧
      (catalog.fixOne filePath fixing finding).template =
        fixing.template.setTextAt target replacement.call ∧
      (catalog.fixOne filePath fixing finding).outcome.replacements =
        fixing.outcome.replacements ++ [replacement] := by
  obtain ⟨target, replacement, insertion, targeted, planned, there, answered⟩ :=
    isFixed_iff.mp fixed
  refine ⟨target, replacement, targeted, planned, ?_⟩
  rw [fixOne_eq_settle targeted planned there]
  generalize catalog.insert _ _ _ = answer at answered
  rcases answer with ⟨_, disk⟩
  obtain rfl : _ = Except.ok insertion := answered
  exact ⟨rfl, rfl⟩

/-- A finding that is offered to the catalog is refused if the answer is an error. -/
theorem mem_refusals_fixOne {target : Address} {replacement : Replacement}
    (targeted : finding.target = some target)
    (planned : catalog.plan? filePath finding = some replacement)
    (there : (fixing.template.textAt? target).isSome = true) (error : CatalogError) :
    ⟨finding, error⟩ ∈ (catalog.fixOne filePath fixing finding).outcome.refusals ↔
      ⟨finding, error⟩ ∈ fixing.outcome.refusals ∨
        (catalog.insert (catalog.findingSegments filePath finding) finding.text
          fixing.disk).1 = .error error := by
  rw [fixOne_eq_settle targeted planned there]
  rcases catalog.insert _ _ _ with ⟨answer | insertion, disk⟩
  · simp [Fixing.settle, Fixing.refuse, eq_comm]
  · simp [Fixing.settle, Fixing.replace]

/-! ## All findings -/

section

variable (catalog : Catalog) (filePath : String)

/-- The replacements made are those planned for the findings that come to one. -/
theorem replacements_foldl (fixing : Fixing) (findings : List Finding) :
    (findings.foldl (catalog.fixOne filePath) fixing).outcome.replacements.map some =
      fixing.outcome.replacements.map some ++
        (catalog.fixedAmong filePath fixing findings).map (catalog.plan? filePath) := by
  induction findings generalizing fixing with
  | nil => exact (List.append_nil _).symm
  | cons finding rest ih =>
    rw [List.foldl_cons, ih, fixedAmong]
    cases fixed : catalog.isFixed filePath fixing finding with
    | true =>
      obtain ⟨_, replacement, _, planned, _, more⟩ := exists_replacement_of_isFixed fixed
      simp [more, planned]
    | false => simp [(keeps_of_not_isFixed fixed).replacements]

/-- Replacements planned for findings have their locations and sources. -/
theorem map_note_of_map_plan? {findings : List Finding} {made : List Replacement}
    (planned : made.map some = findings.map (catalog.plan? filePath)) :
    made.map (fun made => (made.location, made.source)) =
      findings.map fun finding => (finding.location, finding.source) := by
  induction findings generalizing made with
  | nil => simpa using planned
  | cons finding rest ih =>
    cases made with
    | nil => cases planned
    | cons replacement others =>
      obtain ⟨here, behind⟩ := List.cons.inj planned
      obtain ⟨_, location, source, _⟩ := plan?_eq_some_iff.mp here.symm
      rw [List.map_cons, List.map_cons, ih behind, location, source]

/-- The refused findings stay among those left, in their order. -/
theorem refusals_sublist_foldl {fixing : Fixing} (findings : List Finding)
    (sub : (fixing.outcome.refusals.map Refusal.finding).Sublist fixing.outcome.remaining) :
    ((findings.foldl (catalog.fixOne filePath) fixing).outcome.refusals.map
      Refusal.finding).Sublist
        (findings.foldl (catalog.fixOne filePath) fixing).outcome.remaining := by
  induction findings generalizing fixing with
  | nil => exact sub
  | cons finding rest ih =>
    refine ih ?_
    obtain ⟨_, deals⟩ := catalog.fixOne_deals filePath fixing finding
    obtain same | ⟨error, more, left, -⟩ := deals.refusals
    · rw [same]
      rcases deals.keeps_or_gains with keeps | gains
      · rw [keeps.remaining]
        exact sub.trans (List.sublist_append_left ..)
      · rwa [gains.remaining]
    · rw [more, left, List.map_append]
      exact sub.append_right [finding]

/-- Whoever is refused was there before, or is a planned finding among those dealt with; and no
refusal is taken back. -/
theorem mem_refusals_foldl (fixing : Fixing) {findings : List Finding} {refusal : Refusal} :
    (refusal ∈ (findings.foldl (catalog.fixOne filePath) fixing).outcome.refusals →
      refusal ∈ fixing.outcome.refusals ∨ (refusal.finding ∈ findings ∧
        (catalog.plan? filePath refusal.finding).isSome = true)) ∧
    (refusal ∈ fixing.outcome.refusals →
      refusal ∈ (findings.foldl (catalog.fixOne filePath) fixing).outcome.refusals) := by
  induction findings generalizing fixing with
  | nil => exact ⟨.inl, id⟩
  | cons finding rest ih =>
    obtain ⟨_, deals⟩ := catalog.fixOne_deals filePath fixing finding
    obtain ⟨back, forth⟩ := ih (catalog.fixOne filePath fixing finding)
    rw [List.foldl_cons]
    obtain same | ⟨error, more, -, planned⟩ := deals.refusals
    · rw [same] at back forth
      exact ⟨fun refused => (back refused).imp_right fun ⟨among, planned⟩ =>
        ⟨List.mem_cons_of_mem _ among, planned⟩, forth⟩
    · rw [more] at back forth
      refine ⟨fun refused => ?_, fun refused => forth (List.mem_append_left _ refused)⟩
      rcases back refused with before | ⟨among, planned⟩
      · rcases List.mem_append.mp before with before | here
        · exact .inl before
        · rw [List.mem_singleton.mp here]
          exact .inr ⟨List.mem_cons_self .., planned⟩
      · exact .inr ⟨List.mem_cons_of_mem _ among, planned⟩

/-- Fixing takes no text away. -/
theorem isSome_textAt?_foldl (fixing : Fixing) (findings : List Finding) (address : Address) :
    ((findings.foldl (catalog.fixOne filePath) fixing).template.textAt? address).isSome =
      (fixing.template.textAt? address).isSome := by
  induction findings generalizing fixing with
  | nil => rfl
  | cons finding rest ih =>
    rw [List.foldl_cons, ih]
    cases fixed : catalog.isFixed filePath fixing finding with
    | true =>
      obtain ⟨target, replacement, _, _, changed, _⟩ := exists_replacement_of_isFixed fixed
      have one := fixing.template.setTextAt_rewrite replacement.call target fun _ => none
      rw [Template.rewrite_none] at one
      rw [changed, one, Template.textAt?_rewrite, Option.isSome_map]
    | false => rw [(keeps_of_not_isFixed fixed).template]

end

/-- A finding with a target is met once. -/
theorem not_mem_of_nodup_targets {before after : List Finding} {target : Address}
    (distinct : ((before ++ finding :: after).filterMap Finding.target).Nodup)
    (targeted : finding.target = some target) : finding ∉ before ∧ finding ∉ after := by
  rw [List.filterMap_append, List.filterMap_cons_some targeted, List.nodup_append,
    List.nodup_cons] at distinct
  obtain ⟨-, ⟨later, -⟩, apart⟩ := distinct
  refine ⟨fun among => ?_, fun among => later (List.mem_filterMap.mpr ⟨finding, among, targeted⟩)⟩
  exact apart target (List.mem_filterMap.mpr ⟨finding, among, targeted⟩) target
    (List.mem_cons_self ..) rfl

/-- A finding whose text is there is fixed if something is planned for it and the catalog does not
answer with an error. -/
theorem isFixed_eq_false_iff
    (there : ∀ target, finding.target = some target →
      (fixing.template.textAt? target).isSome = true) :
    catalog.isFixed filePath fixing finding = false ↔
      finding.target = none ∨ catalog.Unquotable filePath finding ∨
        ∃ error, (catalog.insert (catalog.findingSegments filePath finding) finding.text
          fixing.disk).1 = .error error := by
  rw [← or_assoc, ← plan?_eq_none_iff, ← Bool.not_eq_true, isFixed_iff]
  cases planned : catalog.plan? filePath finding with
  | none => simp
  | some replacement =>
    obtain ⟨target, targeted⟩ := target_of_plan? planned
    generalize (catalog.insert _ _ _).1 = answer
    cases answer <;> simp [targeted, there target targeted]

theorem fixAll_split (template : Template) (disk : Disk) (before : List Finding) (finding : Finding)
    (after : List Finding) :
    catalog.fixAll filePath template (before ++ finding :: after) disk =
      after.foldl (catalog.fixOne filePath)
        (catalog.fixOne filePath (catalog.fixAll filePath template before disk) finding) := by
  simp only [fixAll, List.foldl_append, List.foldl_cons]

/-- Whether a finding is left is decided when its turn comes. -/
theorem mem_remaining_iff {template : Template} {disk : Disk} {before after : List Finding}
    (distinct : ((before ++ finding :: after).filterMap Finding.target).Nodup) :
    finding ∈ (catalog.fixAll filePath template (before ++ finding :: after)
        disk).outcome.remaining ↔
      catalog.isFixed filePath (catalog.fixAll filePath template before disk) finding = false := by
  obtain ⟨earlier, first, firstParts⟩ :=
    catalog.fixedAmong_interleaved filePath { template, disk } before
  obtain ⟨later, second, secondParts⟩ := catalog.fixedAmong_interleaved filePath
    (catalog.fixOne filePath (catalog.fixAll filePath template before disk) finding) after
  rw [fixAll_split, second, List.mem_append]
  cases fixed : catalog.isFixed filePath (catalog.fixAll filePath template before disk) finding with
  | false => simp [(keeps_of_not_isFixed fixed).remaining]
  | true =>
    obtain ⟨target, _, targeted, _⟩ := exists_replacement_of_isFixed fixed
    obtain ⟨fresh, last⟩ := not_mem_of_nodup_targets distinct targeted
    have notEarlier : finding ∉ earlier := fun among =>
      fresh (firstParts.perm.mem_iff.mp (List.mem_append_right _ among))
    have notLater : finding ∉ later := fun among =>
      last (secondParts.perm.mem_iff.mp (List.mem_append_right _ among))
    have start : (catalog.fixAll filePath template before disk).outcome.remaining = earlier := first
    simp [(gains_of_isFixed fixed).remaining, start, notEarlier, notLater]

/-- Whether a finding is refused is decided when its turn comes. -/
theorem mem_refusals_iff {template : Template} {disk : Disk} {before after : List Finding}
    (distinct : ((before ++ finding :: after).filterMap Finding.target).Nodup)
    (there : ∀ target, finding.target = some target →
      ((catalog.fixAll filePath template before disk).template.textAt? target).isSome = true)
    (error : CatalogError) :
    ⟨finding, error⟩ ∈ (catalog.fixAll filePath template (before ++ finding :: after)
        disk).outcome.refusals ↔
      (catalog.plan? filePath finding).isSome = true ∧
        (catalog.insert (catalog.findingSegments filePath finding) finding.text
          (catalog.fixAll filePath template before disk).disk).1 = .error error := by
  cases planned : catalog.plan? filePath finding with
  | none =>
    refine ⟨fun refused => ?_, by simp⟩
    rcases (catalog.mem_refusals_foldl filePath _).1 refused with none | ⟨-, some⟩
    · exact absurd none List.not_mem_nil
    · rw [planned] at some
      cases some
  | some replacement =>
    obtain ⟨target, targeted⟩ := target_of_plan? planned
    obtain ⟨fresh, last⟩ := not_mem_of_nodup_targets distinct targeted
    have notEarlier : ⟨finding, error⟩ ∉
        (catalog.fixAll filePath template before disk).outcome.refusals := fun refused =>
      ((catalog.mem_refusals_foldl filePath _).1 refused).elim List.not_mem_nil
        fun among => fresh among.1
    have decided : ⟨finding, error⟩ ∈ (catalog.fixAll filePath template (before ++ finding :: after)
        disk).outcome.refusals ↔ ⟨finding, error⟩ ∈ (catalog.fixOne filePath
          (catalog.fixAll filePath template before disk) finding).outcome.refusals := by
      rw [fixAll_split]
      exact ⟨fun refused => ((catalog.mem_refusals_foldl filePath _).1 refused).resolve_right
        fun among => last among.1, (catalog.mem_refusals_foldl filePath _).2⟩
    rw [decided, mem_refusals_fixOne targeted planned (there target targeted),
      or_iff_right notEarlier]
    simp

/-- Fixing takes findings apart into those fixed and those left, each in their order, and those
refused are among those left. If they are the findings of the template, the text of each is there
when its turn comes. So a finding is left if and only if it has no target, its key cannot be quoted,
or the catalog, as it is at that moment, answers with an error; and it is refused if and only if it
is offered to the catalog and the answer is that error. -/
theorem fixing_takes_findings_apart (catalog : Catalog) (filePath : String) :
    (∀ template findings disk,
      let outcome := (catalog.fixAll filePath template findings disk).outcome
      let fixed := catalog.fixedAmong filePath { template, disk } findings
      Interleaved fixed outcome.remaining findings ∧
        outcome.replacements.map (fun made => (made.location, made.source)) =
          fixed.map (fun finding => (finding.location, finding.source)) ∧
        (outcome.refusals.map Refusal.finding).Sublist outcome.remaining) ∧
    ∀ (rule : Rule) template disk before finding after,
      rule.findings template = before ++ finding :: after →
      let now := catalog.fixAll filePath template before disk
      let outcome := (catalog.fixAll filePath template (rule.findings template) disk).outcome
      let answer := (catalog.insert (catalog.findingSegments filePath finding) finding.text
        now.disk).1
      (∀ target, finding.target = some target → now.template.textAt? target ≠ none) ∧
        (finding ∈ outcome.remaining ↔ finding.target = none ∨
          catalog.Unquotable filePath finding ∨ ∃ error, answer = .error error) ∧
        ∀ error, ⟨finding, error⟩ ∈ outcome.refusals ↔
          (catalog.plan? filePath finding).isSome = true ∧ answer = .error error := by
  refine ⟨fun template findings disk => ?_, ?_⟩
  · obtain ⟨left, remaining, parts⟩ :=
      catalog.fixedAmong_interleaved filePath { template, disk } findings
    have made := catalog.replacements_foldl filePath { template, disk } findings
    obtain rfl : left = (catalog.fixAll filePath template findings disk).outcome.remaining :=
      remaining.symm
    refine ⟨parts, ?_, catalog.refusals_sublist_foldl filePath findings (.refl [])⟩
    exact catalog.map_note_of_map_plan? filePath made
  · intro rule template disk before finding after found
    have distinct := rule.nodup_targets template
    have there : ∀ target, finding.target = some target →
        ((catalog.fixAll filePath template before disk).template.textAt? target).isSome = true := by
      intro target targeted
      have among : finding ∈ rule.findings template := by simp [found]
      obtain ⟨text, present, -⟩ := (rule.mem_findings_targeted _ _ _).mp ⟨among, targeted⟩
      rw [fixAll, isSome_textAt?_foldl, present]
      rfl
    rw [found] at distinct ⊢
    refine ⟨fun target targeted => Option.isSome_iff_ne_none.mp (there target targeted), ?_,
      mem_refusals_iff distinct there⟩
    rw [mem_remaining_iff distinct, isFixed_eq_false_iff there]

end Catalog

namespace Session.Sample

/-- A text, a text with quotes of both kinds, and a literal that is no text of the body. -/
def mixed : Template :=
  ⟨[.text ⟨"Hi", some ⟨1, 2⟩, []⟩, .text ⟨"It\x27s \"it\"", some ⟨2, 2⟩, []⟩,
    .mustache ⟨.literal ⟨"Hi", some ⟨3, 2⟩, []⟩, none, []⟩], []⟩

/-- The finding of the text with quotes. -/
def quotedFinding : Finding := ⟨"It\x27s \"it\"", ⟨2, 2⟩, none, some [.child 1]⟩

/-- The finding of the literal. -/
def literalFinding : Finding := ⟨"Hi", ⟨3, 2⟩, none, none⟩

end Session.Sample

namespace Catalog

open Session (Sample.session Sample.rule Sample.disk Sample.mixed Sample.finding
  Sample.quotedFinding Sample.literalFinding)

/-- The text is fixed, and without a catalog it is refused; the text with quotes and the literal are
left. -/
theorem sample_findings_taken_apart :
    Sample.rule.findings Sample.mixed =
      [Sample.finding, Sample.quotedFinding, Sample.literalFinding] ∧
    Interleaved [Sample.finding] [Sample.quotedFinding, Sample.literalFinding]
      [Sample.finding, Sample.quotedFinding, Sample.literalFinding] ∧
    Sample.quotedFinding ∈ (Sample.session.catalog.fixAll "app/a.hbs" Sample.mixed
      (Sample.rule.findings Sample.mixed) Sample.disk).outcome.remaining ∧
    ⟨Sample.finding, .missing ⟨"/translations/en.json"⟩⟩ ∈
      (Sample.session.catalog.fixAll "app/a.hbs" Sample.mixed
        (Sample.rule.findings Sample.mixed) {}).outcome.refusals := by
  have found : Sample.rule.findings Sample.mixed =
      [Sample.finding, Sample.quotedFinding, Sample.literalFinding] := by
    decide +kernel
  have left : (Sample.session.catalog.fixAll "app/a.hbs" Sample.mixed
      [Sample.finding, Sample.quotedFinding, Sample.literalFinding] Sample.disk).outcome.remaining =
        [Sample.quotedFinding, Sample.literalFinding] := by
    decide +kernel
  have fixed : Sample.session.catalog.fixedAmong "app/a.hbs"
      { template := Sample.mixed, disk := Sample.disk }
      [Sample.finding, Sample.quotedFinding, Sample.literalFinding] = [Sample.finding] := by
    decide +kernel
  obtain ⟨all, each⟩ := fixing_takes_findings_apart Sample.session.catalog "app/a.hbs"
  obtain ⟨parts, -, -⟩ := all Sample.mixed
    [Sample.finding, Sample.quotedFinding, Sample.literalFinding] Sample.disk
  rw [left, fixed] at parts
  obtain ⟨-, quoted, -⟩ := each Sample.rule Sample.mixed Sample.disk [Sample.finding]
    Sample.quotedFinding [Sample.literalFinding] found
  obtain ⟨-, -, refused⟩ := each Sample.rule Sample.mixed {} [] Sample.finding
    [Sample.quotedFinding, Sample.literalFinding] found
  refine ⟨found, parts, quoted.mpr (.inr (.inl ⟨?_, ?_⟩)), (refused _).mpr ⟨?_, ?_⟩⟩ <;>
    decide +kernel

end Catalog

end TemplateLint
