import Mathlib
import TemplateLint.Proofs.Findings
import TemplateLint.Proofs.Rewriting
import TemplateLint.Rule.Fixing

/-! # What fixing does to a document

Findings are fixed one after another on a template that earlier fixes have changed. `Catalog.Deals`
says once what can become of a finding, whatever the catalog answers, and `Catalog.Accounts` is the
invariant: every finding dealt with is either left or fixed, and the template is the first one with
the calls of the fixes in the place of their texts. Everything else follows from the invariant and
from what is known of the targets of findings.
-/

namespace TemplateLint

/-! ## Lists taken apart -/

/-- A list whose items are those of two others, in the order they have there. -/
inductive Interleaved {α : Type} : List α → List α → List α → Prop where
  | nil : Interleaved [] [] []
  | left {first second whole : List α} (item : α) (rest : Interleaved first second whole) :
      Interleaved (first ++ [item]) second (whole ++ [item])
  | right {first second whole : List α} (item : α) (rest : Interleaved first second whole) :
      Interleaved first (second ++ [item]) (whole ++ [item])

namespace Interleaved

variable {α : Type} {first second whole : List α}

theorem perm (parts : Interleaved first second whole) : (first ++ second).Perm whole := by
  induction parts with
  | nil => exact .nil
  | @left first second whole item _ ih =>
    calc first ++ [item] ++ second
      _ = first ++ (item :: second) := by simp
      _ |>.Perm (item :: (first ++ second)) := List.perm_middle
      _ |>.Perm (item :: whole) := ih.cons item
      _ |>.Perm (whole ++ [item]) := (List.perm_append_singleton item whole).symm
  | @right first second whole item _ ih =>
    rw [← List.append_assoc]
    exact ih.append_right [item]

theorem left_sublist (parts : Interleaved first second whole) : first.Sublist whole := by
  induction parts with
  | nil => exact .slnil
  | left item _ ih => exact ih.append_right [item]
  | right item _ ih => exact ih.trans (List.sublist_append_left ..)

theorem left_eq (parts : Interleaved first [] whole) : first = whole := by
  generalize none : ([] : List α) = second at parts
  induction parts with
  | nil => rfl
  | left item _ ih => rw [ih none]
  | right item => simp at none

end Interleaved

namespace Catalog

/-! ## One finding -/

/-- What an insertion may come to, and what is printed for the file on the way. The catalog may
refuse a text for any reason, and then the disk is as it was. -/
inductive Inserts (catalog : Catalog) (segments : List String) (text : String) (disk : Disk) :
    List Members → Except CatalogError Insertion × Disk → Prop where
  | refused (error : CatalogError) : Inserts catalog segments text disk [] (.error error, disk)
  | existing (present : catalog.update disk segments text = .ok none) :
      Inserts catalog segments text disk [] (.ok .existing, disk)
  | added {members : Members} {after : Disk}
      (updated : catalog.update disk segments text = .ok (some members))
      (written : disk.writeText catalog.path (fileText members) = .ok after) :
      Inserts catalog segments text disk [members] (.ok .added, after)

theorem insert_inserts (catalog : Catalog) (segments : List String) (text : String)
    (disk : Disk) :
    ∃ printed, catalog.Inserts segments text disk printed (catalog.insert segments text disk) := by
  unfold insert
  split
  next error _ => exact ⟨[], .refused error⟩
  next present => exact ⟨[], .existing present⟩
  next members updated =>
    split
    next cause _ => exact ⟨[], .refused _⟩
    next after written => exact ⟨[members], .added updated written⟩

/-- What can become of a finding, and what is printed for the catalog on the way. -/
inductive Deals (catalog : Catalog) (filePath : String) (fixing : Fixing) (finding : Finding) :
    List Members → Fixing → Prop where
  | unplanned (unplanned : catalog.plan? filePath finding = none) :
      Deals catalog filePath fixing finding [] (fixing.leave finding)
  | textless {target : Address} (targeted : finding.target = some target)
      (textless : fixing.template.textAt? target = none) :
      Deals catalog filePath fixing finding [] (fixing.leave finding)
  | settled {target : Address} {text : TextNode} {replacement : Replacement}
      {printed : List Members} {answer : Except CatalogError Insertion × Disk}
      (targeted : finding.target = some target)
      (present : fixing.template.textAt? target = some text)
      (planned : catalog.plan? filePath finding = some replacement)
      (inserts : catalog.Inserts (catalog.findingSegments filePath finding) finding.text
        fixing.disk printed answer) :
      Deals catalog filePath fixing finding printed
        (fixing.settle finding target replacement answer)

theorem target_of_plan? {catalog : Catalog} {filePath : String} {finding : Finding}
    {replacement : Replacement} (planned : catalog.plan? filePath finding = some replacement) :
    ∃ target, finding.target = some target := by
  cases targeted : finding.target with
  | none => simp [plan?, targeted] at planned
  | some target => exact ⟨target, rfl⟩

/-- A planned replacement has source, location, key and call of its finding. -/
theorem plan?_eq_some_iff {catalog : Catalog} {filePath : String} {finding : Finding}
    {replacement : Replacement} :
    catalog.plan? filePath finding = some replacement ↔
      finding.target.isSome = true ∧ replacement.location = finding.location ∧
        replacement.source = finding.source ∧
        replacement.key = Key.written (catalog.findingSegments filePath finding) ∧
        Helper.call? replacement.key = some replacement.call := by
  rcases replacement with ⟨location, source, key, call⟩
  cases targeted : finding.target with
  | none => simp [plan?, targeted]
  | some target =>
    simp only [plan?, targeted, Option.bind_eq_bind, Option.bind_some, Option.bind_eq_some_iff,
      Option.pure_def, Option.some.injEq, Replacement.mk.injEq, Option.isSome_some, true_and]
    grind

/-- The fixer does one of the things that can become of a finding. -/
theorem fixOne_deals (catalog : Catalog) (filePath : String) (fixing : Fixing)
    (finding : Finding) : ∃ printed, catalog.Deals filePath fixing finding printed
      (catalog.fixOne filePath fixing finding) := by
  unfold fixOne
  split
  next target replacement targeted planned =>
    cases present : fixing.template.textAt? target with
    | none => exact ⟨_, .textless targeted present⟩
    | some text =>
      obtain ⟨printed, inserts⟩ := catalog.insert_inserts
        (catalog.findingSegments filePath finding) finding.text fixing.disk
      exact ⟨printed, .settled targeted present planned inserts⟩
  next unplanned =>
    cases planned : catalog.plan? filePath finding with
    | none => exact ⟨_, .unplanned planned⟩
    | some replacement =>
      obtain ⟨target, targeted⟩ := target_of_plan? planned
      exact (unplanned target replacement targeted planned).elim

end Catalog

/-! ## All findings -/

/-- A finding that was fixed, with its target and its replacement. -/
structure Fix where
  finding : Finding
  target : Address
  replacement : Replacement

namespace Fix

/-- The call that fixes put at an address. -/
def callAt? (fixes : List Fix) (address : Address) : Option String :=
  (fixes.find? fun fix => fix.target = address).map fun fix => fix.replacement.call

theorem callAt?_append {fixes : List Fix} {fix : Fix} (fresh : fix.target ∉ fixes.map Fix.target) :
    callAt? (fixes ++ [fix]) =
      Function.update (callAt? fixes) fix.target (some fix.replacement.call) := by
  funext address
  by_cases here : address = fix.target
  · subst here
    have unseen : fixes.find? (fun other => other.target = fix.target) = none := by
      simpa using fresh
    simp [callAt?, List.find?_append, unseen]
  · rw [Function.update_of_ne here]
    simp [callAt?, List.find?_append, Ne.symm here]

theorem callAt?_eq_none {fixes : List Fix} {address : Address}
    (absent : address ∉ fixes.map Fix.target) : callAt? fixes address = none := by
  simpa [callAt?] using absent

theorem callAt?_target {fixes : List Fix} (distinct : (fixes.map Fix.target).Nodup) {fix : Fix}
    (present : fix ∈ fixes) : callAt? fixes fix.target = some fix.replacement.call := by
  induction fixes with
  | nil => cases present
  | cons head rest ih =>
    rw [List.map_cons, List.nodup_cons] at distinct
    rcases List.mem_cons.mp present with rfl | inRest
    · simp [callAt?]
    · have differ : head.target ≠ fix.target := fun same =>
        distinct.1 (same ▸ List.mem_map_of_mem inRest)
      simpa [callAt?, List.find?_cons, differ] using ih distinct.2 inRest

end Fix

namespace Catalog

/-- What holds after some findings of a template were dealt with: each was left or fixed, in order,
and the fixed ones have their planned calls in the place of their texts. -/
structure Accounts (catalog : Catalog) (filePath : String) (template : Template)
    (findings : List Finding) (fixing : Fixing) (fixes : List Fix) : Prop where
  parts : Interleaved (fixes.map Fix.finding) fixing.outcome.remaining findings
  replacements : fixing.outcome.replacements = fixes.map Fix.replacement
  targeted : ∀ fix ∈ fixes, fix.finding.target = some fix.target
  planned : ∀ fix ∈ fixes, catalog.plan? filePath fix.finding = some fix.replacement
  rewritten : fixing.template = template.rewrite (Fix.callAt? fixes)

namespace Accounts

variable {catalog : Catalog} {filePath : String} {template : Template} {findings : List Finding}
  {fixing next : Fixing} {fixes : List Fix} {finding : Finding} {printed : List Members}

theorem start (catalog : Catalog) (filePath : String) (template : Template) (disk : Disk) :
    catalog.Accounts filePath template [] { template, disk } [] where
  parts := .nil
  replacements := rfl
  targeted := by simp
  planned := by simp
  rewritten := template.rewrite_none.symm

theorem leave (accounts : catalog.Accounts filePath template findings fixing fixes)
    (finding : Finding) :
    catalog.Accounts filePath template (findings ++ [finding]) (fixing.leave finding) fixes where
  parts := .right finding accounts.parts
  replacements := accounts.replacements
  targeted := accounts.targeted
  planned := accounts.planned
  rewritten := accounts.rewritten

theorem refuse (accounts : catalog.Accounts filePath template findings fixing fixes)
    (finding : Finding) (error : CatalogError) (disk : Disk) :
    catalog.Accounts filePath template (findings ++ [finding])
      ({ fixing with disk := disk }.refuse finding error) fixes where
  parts := .right finding accounts.parts
  replacements := accounts.replacements
  targeted := accounts.targeted
  planned := accounts.planned
  rewritten := accounts.rewritten

/-- The targets of the fixes are among those of the findings dealt with. -/
theorem targets_sublist (accounts : catalog.Accounts filePath template findings fixing fixes) :
    (fixes.map Fix.target).Sublist (findings.filterMap Finding.target) := by
  have same : (fixes.map Fix.finding).filterMap Finding.target = fixes.map Fix.target := by
    rw [List.filterMap_map, ← List.filterMap_eq_map]
    exact List.filterMap_congr accounts.targeted
  exact same ▸ accounts.parts.left_sublist.filterMap Finding.target

theorem replace (accounts : catalog.Accounts filePath template findings fixing fixes) (fix : Fix)
    (targeted : fix.finding.target = some fix.target)
    (planned : catalog.plan? filePath fix.finding = some fix.replacement)
    (fresh : fix.target ∉ findings.filterMap Finding.target) (disk : Disk) :
    catalog.Accounts filePath template (findings ++ [fix.finding])
      ({ fixing with disk := disk }.replace fix.target fix.replacement) (fixes ++ [fix]) where
  parts := by
    rw [List.map_append]
    exact .left fix.finding accounts.parts
  replacements := by
    rw [List.map_append, ← accounts.replacements]
    rfl
  targeted := by
    simpa [or_imp, forall_and] using ⟨accounts.targeted, targeted⟩
  planned := by
    simpa [or_imp, forall_and] using ⟨accounts.planned, planned⟩
  rewritten := by
    have unseen : fix.target ∉ fixes.map Fix.target :=
      fun seen => fresh (accounts.targets_sublist.subset seen)
    rw [Fix.callAt?_append unseen, ← Template.setTextAt_rewrite, ← accounts.rewritten]
    rfl

/-- One more finding keeps the accounts, if its target was not met before. -/
theorem step (accounts : catalog.Accounts filePath template findings fixing fixes)
    (deals : catalog.Deals filePath fixing finding printed next)
    (distinct : ((findings ++ [finding]).filterMap Finding.target).Nodup) :
    ∃ more, catalog.Accounts filePath template (findings ++ [finding]) next more := by
  cases deals with
  | unplanned => exact ⟨fixes, accounts.leave finding⟩
  | textless => exact ⟨fixes, accounts.leave finding⟩
  | @settled target text replacement _ answer targeted _ planned _ =>
    rcases answer with ⟨error | insertion, disk⟩
    · exact ⟨fixes, accounts.refuse finding error disk⟩
    · have fresh : target ∉ findings.filterMap Finding.target := by
        simp only [List.filterMap_append, List.filterMap_cons, targeted, List.filterMap_nil,
          List.nodup_append] at distinct
        exact fun seen => distinct.2.2 target seen target (List.mem_singleton_self _) rfl
      exact ⟨_, accounts.replace ⟨finding, target, replacement⟩ targeted planned fresh disk⟩

end Accounts

/-- All findings with different targets are accounted for, by induction from the last one. -/
theorem fixAll_accounts (catalog : Catalog) (filePath : String) (template : Template)
    (findings : List Finding) (disk : Disk)
    (distinct : (findings.filterMap Finding.target).Nodup) :
    ∃ fixes, catalog.Accounts filePath template findings
      (catalog.fixAll filePath template findings disk) fixes := by
  induction findings using List.reverseRecOn with
  | nil => exact ⟨[], .start catalog filePath template disk⟩
  | append_singleton findings finding ih =>
    have before : (findings.filterMap Finding.target).Nodup := by
      rw [List.filterMap_append] at distinct
      exact distinct.sublist (List.sublist_append_left ..)
    obtain ⟨fixes, accounts⟩ := ih before
    have last : catalog.fixAll filePath template (findings ++ [finding]) disk =
        catalog.fixOne filePath (catalog.fixAll filePath template findings disk) finding := by
      simp only [fixAll, List.foldl_append, List.foldl_cons, List.foldl_nil]
    obtain ⟨_, deals⟩ := catalog.fixOne_deals filePath
      (catalog.fixAll filePath template findings disk) finding
    exact accounts.step (last ▸ deals) distinct

end Catalog

/-! ## Documents -/

/-- How a fixed document differs from the document before, in terms of the findings that became
fixes. -/
structure Rule.FixedBy (rule : Rule) (catalog : Catalog) (document fixed : Document)
    (outcome : Outcome) (fixes : List Fix) : Prop where
  /-- The findings are, in order, those that became fixes and those that are left. -/
  parts : Interleaved (fixes.map Fix.finding) outcome.remaining (rule.findings document.template)
  replacements : outcome.replacements = fixes.map Fix.replacement
  planned : ∀ fix ∈ fixes, fix.finding.target = some fix.target ∧
    catalog.plan? document.filePath fix.finding = some fix.replacement
  distinct : (fixes.map Fix.target).Nodup
  /-- Nothing but the characters of texts of the body changes. -/
  rewritten : fixed = { document with template := document.template.rewrite (Fix.callAt? fixes) }
  /-- At a target stood the text that was found, and now stands the call. -/
  replaced : ∀ fix ∈ fixes, ∃ text, document.template.textAt? fix.target = some text ∧
    text.chars = fix.replacement.source ∧ text.location = some fix.replacement.location ∧
    fixed.template.textAt? fix.target = some { text with chars := fix.replacement.call }
  others : ∀ address ∉ fixes.map Fix.target,
    fixed.template.textAt? address = document.template.textAt? address
  /-- Text without a location, or in an ignored element, is left alone. -/
  passedOver : ∀ address text, document.template.textAt? address = some text →
    text.location = none ∨ ¬ Visible (document.template.tagsAt address) →
    fixed.template.textAt? address = some text

/-- The accounts of the findings of a document say how the document changes. -/
theorem Catalog.Accounts.fixedBy {rule : Rule} {catalog : Catalog} {document : Document}
    {fixing : Catalog.Fixing} {fixes : List Fix}
    (accounts : catalog.Accounts document.filePath document.template
      (rule.findings document.template) fixing fixes) :
    rule.FixedBy catalog document { document with template := fixing.template } fixing.outcome
      fixes := by
  have distinct : (fixes.map Fix.target).Nodup :=
    (rule.nodup_targets document.template).sublist accounts.targets_sublist
  -- A target is that of a finding, so a text with a location stands there in no ignored element.
  have found : ∀ fix ∈ fixes, ∃ text, document.template.textAt? fix.target = some text ∧
      Visible (document.template.tagsAt fix.target) ∧
      text.location = some fix.finding.location ∧ text.chars = fix.finding.source := by
    intro fix present
    have finding : fix.finding ∈ rule.findings document.template :=
      accounts.parts.left_sublist.subset (List.mem_map_of_mem present)
    obtain ⟨text, there, visible, located, _, same⟩ :=
      (rule.mem_findings_targeted _ _ _).mp ⟨finding, accounts.targeted fix present⟩
    exact ⟨text, there, visible, located, by rw [same]⟩
  have others : ∀ address ∉ fixes.map Fix.target,
      fixing.template.textAt? address = document.template.textAt? address := by
    intro address absent
    rw [accounts.rewritten, Template.textAt?_rewrite, Fix.callAt?_eq_none absent]
    cases document.template.textAt? address <;> rfl
  refine ⟨accounts.parts, accounts.replacements,
    fun fix present => ⟨accounts.targeted fix present, accounts.planned fix present⟩,
    distinct, by rw [accounts.rewritten], ?_, others, ?_⟩
  · intro fix present
    obtain ⟨text, there, _, located, source⟩ := found fix present
    obtain ⟨_, sameLocation, sameSource, _, _⟩ :=
      Catalog.plan?_eq_some_iff.mp (accounts.planned fix present)
    refine ⟨text, there, source.trans sameSource.symm, sameLocation ▸ located, ?_⟩
    rw [accounts.rewritten, Template.textAt?_rewrite, there,
      Fix.callAt?_target distinct present]
    rfl
  · intro address text there skipped
    rw [← there]
    refine others address fun targeted => ?_
    obtain ⟨fix, present, rfl⟩ := List.mem_map.mp targeted
    obtain ⟨other, alsoThere, visible, located, _⟩ := found fix present
    obtain rfl := Option.some.inj (alsoThere.symm.trans there)
    rcases skipped with unlocated | hidden
    · cases unlocated.symm.trans located
    · exact hidden visible

/-- Fixing a document changes the texts of its body at the targets of the findings that became
fixes, each to the call of its replacement, and nothing else. Reporting changes nothing. -/
theorem Rule.lint_changes_fixed_texts (rule : Rule) (catalog : Catalog) (document : Document)
    (disk : Disk) :
    (∃ fixes, rule.FixedBy catalog document (rule.lint (.fix catalog) document disk).1
      (rule.lint (.fix catalog) document disk).2.1 fixes) ∧
    (rule.lint .report document disk).1 = document := by
  obtain ⟨fixes, accounts⟩ := catalog.fixAll_accounts document.filePath document.template
    (rule.findings document.template) disk (rule.nodup_targets document.template)
  exact ⟨⟨fixes, accounts.fixedBy⟩, rfl⟩

end TemplateLint
