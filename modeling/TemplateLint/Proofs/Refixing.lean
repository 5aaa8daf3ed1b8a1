import Mathlib
import TemplateLint.Proofs.Calls
import TemplateLint.Proofs.Keys
import TemplateLint.Proofs.Runs
import TemplateLint.Proofs.Stripping
import TemplateLint.Rule.Decode

/-! # Fixing a document again

A call of the translation helper takes the place of a text as the characters of that text, so a
second run looks at the call as it looked at the text. When the first run leaves no finding, the
findings of the second are the calls that are bare. It has nothing to do if and only if the allowlist
takes every call apart, and an allowlist without quotes, as the default is, takes none apart.
-/

namespace TemplateLint

/-! ## Candidates of a rewritten template -/

/-- A candidate with new characters, if there are some for its target. -/
def Candidate.rewrite (chars : Address → Option String) (candidate : Candidate) : Candidate :=
  { candidate with raw := (candidate.target.bind chars).getD candidate.raw }

theorem Candidate.map_rewrite_of_untargeted (chars : Address → Option String)
    {candidates : List Candidate} (untargeted : ∀ candidate ∈ candidates, candidate.target = none) :
    candidates.map (Candidate.rewrite chars) = candidates := by
  have same : ∀ candidate ∈ candidates, candidate.rewrite chars = candidate := by
    intro candidate present
    have target := untargeted candidate present
    rcases candidate with ⟨raw, location, attr, _ | place⟩
    · rfl
    · cases target
  rw [List.map_congr_left same, List.map_id']

mutual
theorem Node.candidates_rewrite (rule : Rule) (tags : List String) (address : Address)
    (chars : Address → Option String) : (node : Node) →
    (node.rewrite fun rest => chars (address ++ rest)).candidates rule tags address =
      (node.candidates rule tags address).map (Candidate.rewrite chars)
  | .text node => by
    by_cases visible : Visible tags <;>
      simp [Node.rewrite, Node.candidates, visible, Candidate.rewrite]
  | .element tag attributes children location extra => by
    have untargeted := Candidate.map_rewrite_of_untargeted chars
      fun candidate (present : candidate ∈
        attributes.flatMap (Attribute.candidates rule tag tags)) => Attribute.target_of_mem present
    have below := Node.listCandidates_rewrite rule (tag :: tags) address .child 0 chars children
    simp only [Nat.zero_add] at below
    rw [Node.rewrite, Node.candidates, Node.candidates, List.map_append, untargeted, below]
  | .mustache node => by
    change (Node.mustache node).candidates rule tags address = _
    refine (Candidate.map_rewrite_of_untargeted chars fun candidate present => ?_).symm
    rw [Node.candidates] at present
    split_ifs at present
    · exact Mustache.target_of_mem present
    · cases present
  | .block path program inverse location extra => by
    rw [Node.rewrite, Node.candidates, Node.candidates, List.map_append,
      Block.candidates_rewrite rule tags address .program chars program,
      Block.optionCandidates_rewrite rule tags address .inverse chars inverse]
  | .other value => rfl
theorem Node.listCandidates_rewrite (rule : Rule) (tags : List String) (address : Address)
    (step : Nat → Step) (index : Nat) (chars : Address → Option String) : (nodes : List Node) →
    Node.listCandidates rule tags address step index
        (Node.listRewrite (fun i rest => chars (address ++ step (index + i) :: rest)) nodes) =
      (Node.listCandidates rule tags address step index nodes).map (Candidate.rewrite chars)
  | [] => rfl
  | node :: others => by
    have here := Node.candidates_rewrite rule tags (address ++ [step index]) chars node
    have behind := Node.listCandidates_rewrite rule tags address step (index + 1) chars others
    simp only [List.append_assoc, List.singleton_append] at here
    simp only [Nat.add_right_comm index 1, Nat.add_assoc] at behind
    rw [Node.listRewrite, Node.listCandidates, Node.listCandidates, List.map_append]
    simp only [Nat.add_zero, here, behind]
theorem Block.candidates_rewrite (rule : Rule) (tags : List String) (address : Address)
    (step : Nat → Step) (chars : Address → Option String) : (block : Block) →
    (block.rewrite fun i rest => chars (address ++ step i :: rest)).candidates rule tags address
        step =
      (block.candidates rule tags address step).map (Candidate.rewrite chars)
  | .mk body _ => by
    have listed := Node.listCandidates_rewrite rule tags address step 0 chars body
    simp only [Nat.zero_add] at listed
    exact listed
theorem Block.optionCandidates_rewrite (rule : Rule) (tags : List String) (address : Address)
    (step : Nat → Step) (chars : Address → Option String) : (branch : Option Block) →
    Block.optionCandidates rule tags address step
        (Block.optionRewrite (fun i rest => chars (address ++ step i :: rest)) branch) =
      (Block.optionCandidates rule tags address step branch).map (Candidate.rewrite chars)
  | none => rfl
  | some block => Block.candidates_rewrite rule tags address step chars block
end

/-- A rewriting changes the characters of candidates and nothing else about them. -/
theorem Template.candidates_rewrite (rule : Rule) (chars : Address → Option String)
    (template : Template) :
    (template.rewrite chars).candidates rule =
      (template.candidates rule).map (Candidate.rewrite chars) := by
  have listed := Node.listCandidates_rewrite rule [] [] .child 0 chars template.body
  simp only [Nat.zero_add, List.nil_append] at listed
  exact listed

/-! ## Findings of a fixed document -/

/-- The candidate that a finding was. -/
def Finding.candidate (finding : Finding) : Candidate :=
  ⟨finding.source, some finding.location, finding.attr, finding.target⟩

/-- The candidate that the call of a fix is, in the place of the text. -/
def Fix.candidate (fix : Fix) : Candidate :=
  ⟨fix.replacement.call, some fix.replacement.location, none, some fix.target⟩

namespace Rule

variable {rule : Rule} {catalog : Catalog} {document fixed : Document} {outcome : Outcome}
  {fixes : List Fix}

theorem eq_candidate_of_accept? {candidate : Candidate} {finding : Finding}
    (accepted : rule.accept? candidate = some finding) : candidate = finding.candidate := by
  obtain ⟨located, _, same⟩ := rule.accept?_eq_some_iff.mp accepted
  rcases candidate with ⟨raw, location, attr, target⟩
  rw [Finding.candidate, ← located, same]

/-- No fix has the target of a candidate that was passed over. -/
theorem FixedBy.callAt?_of_passedOver (fixedBy : rule.FixedBy catalog document fixed outcome fixes)
    {candidate : Candidate} (present : candidate ∈ document.template.candidates rule)
    (passedOver : rule.accept? candidate = none) : candidate.target.bind (Fix.callAt? fixes) = none := by
  cases targeted : candidate.target with
  | none => rfl
  | some place =>
    refine Fix.callAt?_eq_none fun taken => ?_
    obtain ⟨fix, among, rfl⟩ := List.mem_map.mp taken
    have found : fix.finding ∈ rule.findings document.template :=
      fixedBy.parts.left_sublist.subset (List.mem_map_of_mem among)
    obtain ⟨text, there, visible, located, bare, same⟩ :=
      (rule.mem_findings_targeted _ _ _).mp ⟨found, (fixedBy.planned fix among).1⟩
    obtain ⟨other, alsoThere, _, rfl⟩ :=
      (document.template.mem_candidates rule _ _).mp ⟨present, targeted⟩
    obtain rfl : text = other := Option.some.inj (there.symm.trans alsoThere)
    have accepted : rule.accept? (text.candidate fix.target) = some fix.finding :=
      rule.accept?_eq_some_iff.mpr ⟨located, bare, same⟩
    cases passedOver.symm.trans accepted

/-- The call of a fix is what its finding becomes. -/
theorem FixedBy.rewrite_candidate (fixedBy : rule.FixedBy catalog document fixed outcome fixes)
    {fix : Fix} (among : fix ∈ fixes) :
    fix.finding.candidate.rewrite (Fix.callAt? fixes) = fix.candidate := by
  have found : fix.finding ∈ rule.findings document.template :=
    fixedBy.parts.left_sublist.subset (List.mem_map_of_mem among)
  obtain ⟨targeted, planned⟩ := fixedBy.planned fix among
  obtain ⟨_, _, _, _, _, same⟩ := (rule.mem_findings_targeted _ _ _).mp ⟨found, targeted⟩
  have plain : fix.finding.attr = none := by rw [same]
  obtain ⟨_, location, _⟩ := Catalog.plan?_eq_some_iff.mp planned
  rw [Candidate.rewrite, Finding.candidate, targeted, Option.bind_some,
    Fix.callAt?_target fixedBy.distinct among, plain, ← location]
  rfl

/-- If no finding is left, the findings of the fixed document are the bare ones among the calls. -/
theorem FixedBy.findings_fixed (fixedBy : rule.FixedBy catalog document fixed outcome fixes)
    (clean : outcome.remaining = []) :
    rule.findings fixed.template = fixes.filterMap fun fix => rule.accept? fix.candidate := by
  have all : fixes.map Fix.finding = rule.findings document.template :=
    (clean ▸ fixedBy.parts).left_eq
  have one : ∀ candidate ∈ document.template.candidates rule,
      rule.accept? (candidate.rewrite (Fix.callAt? fixes)) =
        (rule.accept? candidate).bind fun finding =>
          rule.accept? (finding.candidate.rewrite (Fix.callAt? fixes)) := by
    intro candidate present
    cases accepted : rule.accept? candidate with
    | none =>
      rw [Candidate.rewrite, fixedBy.callAt?_of_passedOver present accepted]
      exact accepted
    | some finding => rw [eq_candidate_of_accept? accepted, Option.bind_some]
  calc rule.findings fixed.template
    _ = (document.template.candidates rule).filterMap fun candidate =>
          rule.accept? (candidate.rewrite (Fix.callAt? fixes)) := by
      rw [fixedBy.rewritten, rule.findings_eq, Template.candidates_rewrite, List.filterMap_map]
      rfl
    _ = (rule.findings document.template).filterMap fun finding =>
          rule.accept? (finding.candidate.rewrite (Fix.callAt? fixes)) := by
      rw [rule.findings_eq, List.filterMap_filterMap]
      exact List.filterMap_congr one
    _ = fixes.filterMap fun fix => rule.accept? fix.candidate := by
      rw [← all, List.filterMap_map]
      exact List.filterMap_congr fun fix among => congrArg _ (fixedBy.rewrite_candidate among)

/-- Fixing has nothing to do if and only if nothing is found. -/
theorem lint_fix_idle_iff (rule : Rule) (catalog : Catalog) (document : Document) (disk : Disk) :
    rule.lint (.fix catalog) document disk = (document, {}, disk) ↔
      rule.findings document.template = [] := by
  constructor
  · intro idle
    obtain ⟨fixes, accounts⟩ := catalog.fixAll_accounts document.filePath document.template
      (rule.findings document.template) disk (rule.nodup_targets document.template)
    have outcome := congrArg (fun result => result.2.1) idle
    dsimp only [Rule.lint, Rule.fix] at outcome
    have parts := accounts.parts
    have replacements := accounts.replacements
    rw [outcome] at parts replacements
    have none : fixes = [] := List.map_eq_nil_iff.mp replacements.symm
    rw [none] at parts
    exact parts.left_eq.symm
  · intro nothing
    simp only [Rule.lint, Rule.fix, Catalog.fixAll, nothing, List.foldl_nil]

/-! ## Calls are bare -/

/-- A call holds the quotes of its key. -/
theorem quote_mem_call {key call : String} (called : Helper.call? key = some call) :
    '"' ∈ call.toList ∨ '\x27' ∈ call.toList := by
  obtain ⟨quote, kind, -, -, rfl⟩ := Helper.exists_quote_of_call? called
  obtain rfl | rfl : quote = '"' ∨ quote = '\x27' := by simpa [Helper.isQuote] using kind
  · exact .inl (by simp)
  · exact .inr (by simp)

/-- No entry of an allowlist holds a quote of either kind. -/
def Quoteless (rule : Rule) : Prop :=
  ∀ entry ∈ rule.allowlist, '"' ∉ entry.toList ∧ '\x27' ∉ entry.toList

theorem Quoteless.bare?_call (quoteless : rule.Quoteless) {key call : String}
    (called : Helper.call? key = some call) : Allowlist.bare? rule.allowlist call = some call := by
  rcases quote_mem_call called with double | single
  · exact Allowlist.bare?_of_foreign double (by decide) fun entry among => (quoteless entry among).1
  · exact Allowlist.bare?_of_foreign single (by decide) fun entry among => (quoteless entry among).2

theorem quoteless_default : Rule.default.Quoteless := by
  have given : ∀ entry ∈ Allowlist.defaultEntries,
      '"' ∉ entry.toList ∧ '\x27' ∉ entry.toList := by
    decide
  exact fun entry among => given entry (Allowlist.mem_of_mem_longestFirst among)

/-! ## Running twice -/

theorem lint_fixedBy {disk after : Disk}
    (ran : rule.lint (.fix catalog) document disk = (fixed, outcome, after)) :
    ∃ fixes, rule.FixedBy catalog document fixed outcome fixes := by
  obtain ⟨fixes, accounts⟩ := catalog.fixAll_accounts document.filePath document.template
    (rule.findings document.template) disk (rule.nodup_targets document.template)
  obtain ⟨rfl, rfl, rfl⟩ := ran
  exact ⟨fixes, accounts.fixedBy⟩

theorem lint_fix_eq (catalog : Catalog) (disk : Disk) {findings : List Finding}
    (found : rule.findings document.template = findings) :
    rule.lint (.fix catalog) document disk =
      ({ document with
          template :=
            (catalog.fixAll document.filePath document.template findings disk).template },
        (catalog.fixAll document.filePath document.template findings disk).outcome,
        (catalog.fixAll document.filePath document.template findings disk).disk) := by
  subst found
  rfl

/-- A call is accepted as a finding if it is bare. -/
theorem accept?_candidate (rule : Rule) (fix : Fix) :
    rule.accept? fix.candidate =
      if (Allowlist.bare? rule.allowlist fix.replacement.call).isSome then
        some ⟨fix.replacement.call, fix.replacement.location, none, some fix.target⟩
      else none := by
  cases bare : Allowlist.bare? rule.allowlist fix.replacement.call with
  | none => simp [accept?, Fix.candidate, bare]
  | some source =>
    obtain rfl := Allowlist.bare?_eq_some bare
    simp [accept?, Fix.candidate, bare]

/-- What a second run finds: the calls of the first that are bare, where their texts were. -/
theorem FixedBy.sources_fixed (fixedBy : rule.FixedBy catalog document fixed outcome fixes)
    (clean : outcome.remaining = []) :
    (rule.findings fixed.template).map (fun finding => (finding.source, finding.location)) =
      (outcome.replacements.filter fun replacement =>
        (Allowlist.bare? rule.allowlist replacement.call).isSome).map
          fun replacement => (replacement.call, replacement.location) := by
  rw [fixedBy.findings_fixed clean, fixedBy.replacements]
  clear fixedBy
  induction fixes with
  | nil => rfl
  | cons fix rest ih =>
    rw [List.filterMap_cons, accept?_candidate, List.map_cons, List.filter_cons]
    cases bare : (Allowlist.bare? rule.allowlist fix.replacement.call).isSome with
    | false => exact ih
    | true => exact congrArg _ ih

/-- A second run has nothing to do if and only if no call of the first is bare. -/
theorem FixedBy.idle_iff (fixedBy : rule.FixedBy catalog document fixed outcome fixes)
    (clean : outcome.remaining = []) (after : Disk) :
    rule.lint (.fix catalog) fixed after = (fixed, {}, after) ↔
      ∀ replacement ∈ outcome.replacements,
        Allowlist.bare? rule.allowlist replacement.call = none := by
  have sources := fixedBy.sources_fixed clean
  rw [lint_fix_idle_iff, ← List.map_eq_nil_iff, sources, List.map_eq_nil_iff,
    List.filter_eq_nil_iff]
  simp

/-- If no entry of the allowlist holds a quote, every call is found again. -/
theorem FixedBy.idle_iff_of_quoteless
    (fixedBy : rule.FixedBy catalog document fixed outcome fixes)
    (clean : outcome.remaining = []) (quoteless : rule.Quoteless) (after : Disk) :
    rule.lint (.fix catalog) fixed after = (fixed, {}, after) ↔ outcome.replacements = [] := by
  rw [fixedBy.idle_iff clean, List.eq_nil_iff_forall_not_mem]
  refine forall_congr' fun replacement => imp_congr_right fun made => ?_
  rw [fixedBy.replacements] at made
  obtain ⟨fix, among, rfl⟩ := List.mem_map.mp made
  obtain ⟨_, _, _, _, called⟩ := Catalog.plan?_eq_some_iff.mp (fixedBy.planned fix among).2
  simp [quoteless.bare?_call called]

/-- After a run that leaves no finding, a second run finds the calls that are bare, where their texts
were. It has nothing to do, and leaves document and catalog as they are, if and only if there is no
such call; if no entry of the allowlist holds a quote, that is if and only if the first run replaced
nothing. -/
theorem refix_idle_iff (rule : Rule) (catalog : Catalog) (document fixed : Document)
    (outcome : Outcome) (disk after : Disk)
    (ran : rule.lint (.fix catalog) document disk = (fixed, outcome, after))
    (clean : outcome.remaining = []) :
    (rule.lint (.fix catalog) fixed after = (fixed, {}, after) ↔
      ∀ replacement ∈ outcome.replacements,
        Allowlist.bare? rule.allowlist replacement.call = none) ∧
    (rule.findings fixed.template).map (fun finding => (finding.source, finding.location)) =
      (outcome.replacements.filter fun replacement =>
        (Allowlist.bare? rule.allowlist replacement.call).isSome).map
          (fun replacement => (replacement.call, replacement.location)) ∧
    (rule.Quoteless →
      (rule.lint (.fix catalog) fixed after = (fixed, {}, after) ↔ outcome.replacements = [])) := by
  obtain ⟨fixes, fixedBy⟩ := lint_fixedBy ran
  exact ⟨fixedBy.idle_iff clean after, fixedBy.sources_fixed clean,
    fun quoteless => fixedBy.idle_iff_of_quoteless clean quoteless after⟩

namespace Sample

/-- A document with one text. -/
def greeting : Document := Key.Sample.document "app/a.hbs" "Hi"

/-- A rule that allows the call for the text. -/
def tolerant : Rule := ⟨["\x7b\x7bt \"a.Hi\"\x7d\x7d"], [], []⟩

end Sample

/-- With its call in the allowlist, a text is replaced and then left alone. -/
theorem refix_idle_of_allowed_call :
    ∃ fixed outcome after,
      Sample.tolerant.lint (.fix Key.Sample.catalog) Sample.greeting Session.Sample.disk =
        (fixed, outcome, after) ∧ outcome.remaining = [] ∧
      outcome.replacements.map Replacement.call = ["\x7b\x7bt \"a.Hi\"\x7d\x7d"] ∧
      Sample.tolerant.lint (.fix Key.Sample.catalog) fixed after = (fixed, {}, after) := by
  obtain ⟨fixed, outcome, after, ran⟩ : ∃ fixed outcome after, Sample.tolerant.lint
      (.fix Key.Sample.catalog) Sample.greeting Session.Sample.disk = (fixed, outcome, after) :=
    ⟨_, _, _, rfl⟩
  have evaluated : ((Sample.tolerant.lint (.fix Key.Sample.catalog) Sample.greeting
      Session.Sample.disk).2.1.remaining, (Sample.tolerant.lint (.fix Key.Sample.catalog)
      Sample.greeting Session.Sample.disk).2.1.replacements) =
        ([], [⟨⟨1, 1⟩, "Hi", "a.Hi", "\x7b\x7bt \"a.Hi\"\x7d\x7d"⟩]) := by
    decide +kernel
  rw [ran] at evaluated
  obtain ⟨clean, replaced⟩ := Prod.mk.inj evaluated
  refine ⟨fixed, outcome, after, ran, clean, by rw [replaced]; rfl, ?_⟩
  refine (refix_idle_iff _ _ _ _ _ _ _ ran clean).1.mpr ?_
  rw [replaced]
  decide +kernel

/-- With the default rule a second run finds the call that the first one put in. -/
theorem default_refix_not_idle :
    ¬ ∀ (value : Json) (rule : Rule) (catalog : Catalog) (document fixed : Document)
      (outcome : Outcome) (disk after : Disk), Rule.decode value = .ok (some rule) →
      rule.lint (.fix catalog) document disk = (fixed, outcome, after) → outcome.remaining = [] →
      rule.lint (.fix catalog) fixed after = (fixed, {}, after) := by
  intro idempotent
  have bare : Allowlist.bare? Rule.default.allowlist "Hi" = some "Hi" :=
    Allowlist.bare?_default_of_foreign (c := 'H') (by decide) (by decide) (by decide)
  have ran := lint_fix_eq Key.Sample.catalog Session.Sample.disk
    (Key.Sample.findings_document bare "app/a.hbs")
  have evaluated :
      (Key.Sample.catalog.fixAll (Key.Sample.document "app/a.hbs" "Hi").filePath
        (Key.Sample.document "app/a.hbs" "Hi").template [Key.Sample.finding "Hi"]
        Session.Sample.disk).outcome.remaining = [] ∧
      (Key.Sample.catalog.fixAll (Key.Sample.document "app/a.hbs" "Hi").filePath
        (Key.Sample.document "app/a.hbs" "Hi").template [Key.Sample.finding "Hi"]
        Session.Sample.disk).outcome.replacements ≠ [] := by
    decide +kernel
  obtain ⟨clean, replaced⟩ := evaluated
  have idle := idempotent (.bool true) Rule.default _ _ _ _ _ _ rfl ran clean
  obtain ⟨fixes, fixedBy⟩ := lint_fixedBy ran
  exact replaced ((fixedBy.idle_iff_of_quoteless clean quoteless_default _).mp idle)

end Rule

end TemplateLint
