import Mathlib
import TemplateLint.Proofs.Edits
import TemplateLint.Proofs.Partition

/-! # Fixing again and again

A call of the translation helper is text of the body like any other, so a later run may put it into
a call again. This comes to an end because of quotes. The key of a text holds the quotes that the
text holds, and the call is written in a kind of quotes that the key does not hold. So every
rewriting of a text adds a kind of quotes to it, whatever rule, catalog and files a run is made
with, and there are two kinds.
-/

namespace TemplateLint

/-! ## Kinds of quotes -/

namespace Helper

/-- How many kinds of quotes a text holds. -/
def quoteKinds (text : String) : Nat :=
  ['"', '\x27'].countP (· ∈ text.toList)

theorem quoteKinds_le_two (text : String) : quoteKinds text ≤ 2 :=
  List.countP_le_length

theorem quoteKinds_mono {text other : String}
    (holds : ∀ quote ∈ ['"', '\x27'], quote ∈ text.toList → quote ∈ other.toList) :
    quoteKinds text ≤ quoteKinds other := by
  refine List.countP_mono_left fun quote among inside => ?_
  simpa using holds quote among (by simpa using inside)

/-- A call holds the quotes of its key and those around it. -/
theorem quoteKinds_lt_call {key call : String} (called : Helper.call? key = some call) :
    quoteKinds key < quoteKinds call := by
  obtain ⟨quote, chosen, rfl⟩ := Option.map_eq_some_iff.mp called
  by_cases double : '"' ∈ key.toList <;> by_cases single : '\x27' ∈ key.toList <;>
    simp [quote?, double, single] at chosen <;> subst chosen <;>
    simp [quoteKinds, double, single]

end Helper

theorem Text.mem_trim {c : Char} {text : String} (present : c ∈ text.toList)
    (inked : Text.isBlank c = false) : c ∈ (Text.trim text).toList := by
  have kept {chars : List Char} (inside : c ∈ chars) : c ∈ chars.dropWhile Text.isBlank := by
    rw [← List.takeWhile_append_dropWhile (p := Text.isBlank) (l := chars),
      List.mem_append] at inside
    refine inside.resolve_left fun blank => ?_
    rw [List.mem_takeWhile_imp blank] at inked
    cases inked
  rw [Text.trim, String.toList_ofList, Text.trimChars, List.mem_reverse]
  exact kept (List.mem_reverse.mpr (kept present))

theorem Key.mem_written {c : Char} {segment : String} {segments : List String}
    (among : segment ∈ segments) (present : c ∈ segment.toList) :
    c ∈ (Key.written segments).toList := by
  rw [Key.written, String.toList_intercalate]
  induction segments with
  | nil => exact absurd among List.not_mem_nil
  | cons first rest ih =>
    rw [List.map_cons]
    cases rest with
    | nil =>
      obtain rfl := List.mem_singleton.mp among
      simpa using present
    | cons next others =>
      rw [List.map_cons, List.intercalate_cons_cons, List.mem_append, List.mem_append]
      rcases List.mem_cons.mp among with rfl | later
      · exact .inl (.inl present)
      · exact .inr (ih later)

/-- The call for a finding holds the quotes of its source and one kind more. -/
theorem Catalog.quoteKinds_lt_of_plan? {catalog : Catalog} {filePath : String} {finding : Finding}
    {replacement : Replacement} (planned : catalog.plan? filePath finding = some replacement) :
    Helper.quoteKinds finding.source < Helper.quoteKinds replacement.call := by
  obtain ⟨-, -, -, key, called⟩ := Catalog.plan?_eq_some_iff.mp planned
  refine lt_of_le_of_lt (Helper.quoteKinds_mono fun quote kind inside => ?_)
    (Helper.quoteKinds_lt_call called)
  have inked : Text.isBlank quote = false := by
    obtain rfl | rfl : quote = '"' ∨ quote = '\x27' := by simpa using kind
    · decide
    · decide
  have last : finding.text ∈ catalog.findingSegments filePath finding := by
    simp [Catalog.findingSegments, Catalog.segments, Key.segments]
  rw [key]
  exact Key.mem_written last (Text.mem_trim inside inked)

/-! ## Edits of one run -/

namespace Edit

theorem last?_eq_none {edits : List Edit} {address : Address}
    (absent : address ∉ edits.map Edit.address) : last? edits address = none := by
  induction edits with
  | nil => rfl
  | cons edit rest ih =>
    obtain ⟨other, later⟩ := not_or.mp (mt List.mem_cons.mpr absent)
    rw [last?_cons, ih later, if_neg (Ne.symm other)]
    rfl

/-- If no address is edited twice, the characters of an edit are the last ones. -/
theorem last?_of_mem {edits : List Edit} (distinct : (edits.map Edit.address).Nodup) {edit : Edit}
    (among : edit ∈ edits) : last? edits edit.address = edit.chars := by
  induction edits with
  | nil => exact absurd among List.not_mem_nil
  | cons first rest ih =>
    obtain ⟨fresh, distinct⟩ := List.nodup_cons.mp distinct
    rw [last?_cons]
    rcases List.mem_cons.mp among with rfl | later
    · rw [last?_eq_none fresh, if_pos rfl]
      rfl
    · have other : first.address ≠ edit.address := fun same =>
        fresh (same ▸ List.mem_map_of_mem later)
      rw [ih distinct later, if_neg other, Option.or_none]

end Edit

namespace Catalog

/-- The edit that fixes a finding. -/
def edit? (catalog : Catalog) (filePath : String) (finding : Finding) : Option Edit := do
  let target ← finding.target
  let replacement ← catalog.plan? filePath finding
  return ⟨target, some replacement.call⟩

/-- The edits that are made when findings are fixed one after another. -/
def edits (catalog : Catalog) (filePath : String) (fixing : Fixing) (findings : List Finding) :
    List Edit :=
  (catalog.fixedAmong filePath fixing findings).filterMap (catalog.edit? filePath)

variable {catalog : Catalog} {filePath : String} {finding : Finding}

theorem edit?_eq_some_iff {edit : Edit} :
    catalog.edit? filePath finding = some edit ↔
      finding.target = some edit.address ∧
        ∃ replacement, catalog.plan? filePath finding = some replacement ∧
          edit.chars = some replacement.call := by
  rcases edit with ⟨address, chars⟩
  simp only [edit?, Option.bind_eq_bind, Option.bind_eq_some_iff, Option.pure_def,
    Option.some.injEq, Edit.mk.injEq]
  grind

/-- The edits of a run are its replacements, and nothing else happens to the template. -/
theorem foldl_fixOne_edits (catalog : Catalog) (filePath : String) (fixing : Fixing)
    (findings : List Finding) :
    (findings.foldl (catalog.fixOne filePath) fixing).template =
        (fixing.template.editEach (catalog.edits filePath fixing findings)).2 ∧
      (findings.foldl (catalog.fixOne filePath) fixing).outcome.replacements.map
          (fun made => some made.call) =
        fixing.outcome.replacements.map (fun made => some made.call) ++
          (catalog.edits filePath fixing findings).map Edit.chars := by
  induction findings generalizing fixing with
  | nil => exact ⟨rfl, (List.append_nil _).symm⟩
  | cons finding rest ih =>
    obtain ⟨template, replacements⟩ := ih (catalog.fixOne filePath fixing finding)
    rw [List.foldl_cons, template, replacements, edits, edits, fixedAmong]
    cases fixed : catalog.isFixed filePath fixing finding with
    | true =>
      obtain ⟨target, replacement, targeted, planned, changed, more⟩ :=
        exists_replacement_of_isFixed fixed
      have edited : catalog.edit? filePath finding = some ⟨target, some replacement.call⟩ :=
        edit?_eq_some_iff.mpr ⟨targeted, replacement, planned, rfl⟩
      simp only [if_true, List.filterMap_cons_some edited, changed, more]
      exact ⟨rfl, by simp⟩
    | false =>
      have keeps := keeps_of_not_isFixed fixed
      simp only [Bool.false_eq_true, if_false, keeps.template, keeps.replacements, and_self]

/-- An address is edited for a finding that has it as its target. -/
theorem edits_sublist (fixing : Fixing) (findings : List Finding) :
    ((catalog.edits filePath fixing findings).map Edit.address).Sublist
      (findings.filterMap Finding.target) := by
  obtain ⟨left, -, parts⟩ := catalog.fixedAmong_interleaved filePath fixing findings
  refine List.Sublist.trans ?_ (parts.left_sublist.filterMap Finding.target)
  rw [edits]
  induction catalog.fixedAmong filePath fixing findings with
  | nil => exact .slnil
  | cons finding rest ih =>
    cases edited : catalog.edit? filePath finding with
    | none =>
      rw [List.filterMap_cons_none edited]
      exact ih.trans ((List.sublist_cons_self finding rest).filterMap _)
    | some edit =>
      obtain ⟨targeted, -⟩ := edit?_eq_some_iff.mp edited
      rw [List.filterMap_cons_some edited, List.filterMap_cons_some targeted]
      exact ih.cons_cons edit.address

end Catalog

/-! ## Runs one after another -/

/-- How many kinds of quotes the text at an address holds, and all of them if there is no text. -/
def Template.quotesAt (template : Template) (address : Address) : Nat :=
  (template.textAt? address).elim 2 fun text => Helper.quoteKinds text.chars

theorem Template.quotesAt_le_two (template : Template) (address : Address) :
    template.quotesAt address ≤ 2 := by
  unfold quotesAt
  cases template.textAt? address with
  | none => exact le_rfl
  | some text => exact Helper.quoteKinds_le_two text.chars

/-- What a document is fixed with: a rule, a catalog, and the files of that moment. -/
structure Pass where
  rule : Rule
  catalog : Catalog
  disk : Disk

namespace Pass

/-- The document after a pass, and what became of its findings. -/
def run (pass : Pass) (document : Document) : Document × Outcome × Disk :=
  pass.rule.lint (.fix pass.catalog) document pass.disk

/-- The edits of texts that a pass makes, in order. -/
def edits (pass : Pass) (document : Document) : List Edit :=
  pass.catalog.edits document.filePath { template := document.template, disk := pass.disk }
    (pass.rule.findings document.template)

theorem nodup_edits (pass : Pass) (document : Document) :
    ((pass.edits document).map Edit.address).Nodup :=
  (pass.rule.nodup_targets document.template).sublist (Catalog.edits_sublist _ _)

/-- What is edited is a text as the document has it, and gets a call with more kinds of quotes. -/
theorem quoteKinds_lt_of_mem_edits {pass : Pass} {document : Document} {edit : Edit}
    (among : edit ∈ pass.edits document) :
    ∃ text call, document.template.textAt? edit.address = some text ∧ edit.chars = some call ∧
      Helper.quoteKinds text.chars < Helper.quoteKinds call := by
  obtain ⟨finding, fixed, edited⟩ := List.mem_filterMap.mp among
  obtain ⟨targeted, replacement, planned, chars⟩ := Catalog.edit?_eq_some_iff.mp edited
  obtain ⟨left, -, parts⟩ := pass.catalog.fixedAmong_interleaved document.filePath
    { template := document.template, disk := pass.disk } (pass.rule.findings document.template)
  have found : finding ∈ pass.rule.findings document.template := parts.left_sublist.subset fixed
  obtain ⟨text, there, -, -, -, same⟩ :=
    (pass.rule.mem_findings_targeted _ _ _).mp ⟨found, targeted⟩
  refine ⟨text, replacement.call, there, chars, ?_⟩
  have more := Catalog.quoteKinds_lt_of_plan? planned
  rwa [same] at more

/-- The edits of a pass make up all that happens to the template. -/
theorem template_run (pass : Pass) (document : Document) :
    (pass.run document).1.template = (document.template.editEach (pass.edits document)).2 :=
  (Catalog.foldl_fixOne_edits ..).1

/-- The edits of a pass are the replacements that it reports. -/
theorem chars_edits (pass : Pass) (document : Document) :
    (pass.edits document).map Edit.chars =
      (pass.run document).2.1.replacements.map fun made => some made.call := by
  have made := (pass.catalog.foldl_fixOne_edits document.filePath
    { template := document.template, disk := pass.disk } (pass.rule.findings document.template)).2
  exact made.symm

/-- Every edit of a text in a pass adds a kind of quotes to it. -/
theorem count_edits_add_quotesAt (pass : Pass) (document : Document) (address : Address) :
    ((pass.edits document).map Edit.address).count address + document.template.quotesAt address ≤
      (pass.run document).1.template.quotesAt address := by
  rw [pass.template_run, Template.editEach_eq, Template.quotesAt, Template.quotesAt,
    Template.textAt?_rewrite]
  by_cases edited : address ∈ (pass.edits document).map Edit.address
  · obtain ⟨edit, among, rfl⟩ := List.mem_map.mp edited
    obtain ⟨text, call, there, chars, more⟩ := quoteKinds_lt_of_mem_edits among
    have once := List.nodup_iff_count_le_one.mp (pass.nodup_edits document) edit.address
    rw [there, Edit.last?_of_mem (pass.nodup_edits document) among, chars]
    change _ + Helper.quoteKinds text.chars ≤ Helper.quoteKinds call
    omega
  · rw [List.count_eq_zero_of_not_mem edited, Edit.last?_eq_none edited]
    cases document.template.textAt? address with
    | none => simp
    | some text => simp [TextNode.withChars]

end Pass

/-- The edits that passes make one after another, and the document after them. -/
def Document.fixEach (document : Document) : List Pass → List Edit × Document
  | [] => ([], document)
  | pass :: rest =>
    let (edits, after) := (pass.run document).1.fixEach rest
    (pass.edits document ++ edits, after)

/-- By induction on the passes: what was edited so far shows in the quotes of the text. -/
theorem Document.count_fixEach_add_quotesAt (document : Document) (passes : List Pass)
    (address : Address) :
    ((document.fixEach passes).1.map Edit.address).count address +
        document.template.quotesAt address ≤
      (document.fixEach passes).2.template.quotesAt address := by
  induction passes generalizing document with
  | nil => simp [fixEach]
  | cons pass rest ih =>
    have first := pass.count_edits_add_quotesAt document address
    have later := ih (pass.run document).1
    simp only [fixEach, List.map_append, List.count_append]
    omega

theorem Document.fixEach_snd (document : Document) (passes : List Pass) :
    (document.fixEach passes).2 = passes.foldl (fun now pass => (pass.run now).1) document := by
  induction passes generalizing document with
  | nil => rfl
  | cons pass rest ih => exact ih (pass.run document).1

/-- Edits in two parts are made one part after the other. -/
theorem Template.editEach_append (template : Template) (first second : List Edit) :
    (template.editEach (first ++ second)).2 = ((template.editEach first).2.editEach second).2 := by
  induction first generalizing template with
  | nil => rfl
  | cons edit rest ih => exact ih (template.edit edit)

theorem Document.template_fixEach (document : Document) (passes : List Pass) :
    (document.fixEach passes).2.template =
      (document.template.editEach (document.fixEach passes).1).2 := by
  induction passes generalizing document with
  | nil => rfl
  | cons pass rest ih =>
    have later := ih (pass.run document).1
    rw [pass.template_run] at later
    simp only [fixEach, Template.editEach_append, later]

/-- However often a document is fixed, with whatever rules, catalogs and files, each of its texts is
rewritten at most twice, and less often if it holds quotes from the start. The edits counted are the
replacements that the passes report, in order, and they make up all that happens to the template. -/
theorem texts_rewritten_at_most_twice (document : Document) (passes : List Pass) :
    (∀ address, ((document.fixEach passes).1.map Edit.address).count address ≤ 2) ∧
    (∀ address, ((document.fixEach passes).1.map Edit.address).count address +
      document.template.quotesAt address ≤ 2) ∧
    (document.fixEach passes).2 = passes.foldl (fun now pass => (pass.run now).1) document ∧
    (document.fixEach passes).2.template =
      (document.template.editEach (document.fixEach passes).1).2 ∧
    ∀ (pass : Pass) (now : Document), (pass.edits now).map Edit.chars =
      (pass.run now).2.1.replacements.map fun made => some made.call := by
  have bound (address : Address) : ((document.fixEach passes).1.map Edit.address).count address +
      document.template.quotesAt address ≤ 2 :=
    (document.count_fixEach_add_quotesAt passes address).trans (Template.quotesAt_le_two ..)
  exact ⟨fun address => (Nat.le_add_right ..).trans (bound address), bound,
    document.fixEach_snd passes, document.template_fixEach passes, Pass.chars_edits⟩

/-- A pass that allows no texts, with an empty catalog. -/
def Session.Sample.pass : Pass :=
  ⟨Session.Sample.rule, Session.Sample.session.catalog, Session.Sample.disk⟩

/-- A text is put into double quotes, then into single ones, and then left alone. -/
example : ((Document.mk "app/a.hbs" Session.Sample.template).fixEach
    (List.replicate 3 Session.Sample.pass)).1.map Edit.chars =
      [some "\x7b\x7bt \"a.Hi\"\x7d\x7d",
       some "\x7b\x7bt \x27a.\x7b\x7bt \"a.Hi\"\x7d\x7d\x27\x7d\x7d"] := by
  decide +kernel

end TemplateLint
