import Mathlib
import TemplateLint.Proofs.Addresses
import TemplateLint.Proofs.Candidates

/-! # Findings of the body

A finding with a target is one of text in the body: at its target there is a text that no ignored
element encloses, and source and location of the finding are those of the text. No two findings have
one target. Findings in attributes and mustaches have no target.
-/

namespace TemplateLint

/-! ## Candidates without a target -/

theorem Mustache.target_of_mem {attr : Option String} {mustache : Mustache} {candidate : Candidate}
    (present : candidate ∈ mustache.candidates attr) : candidate.target = none := by
  unfold Mustache.candidates at present
  split at present
  · rw [List.mem_singleton.mp present]
  · rw [List.mem_singleton.mp present]
  · cases present
  · cases present

theorem Part.target_of_mem {attr : Option String} {part : Part} {candidate : Candidate}
    (present : candidate ∈ part.candidates attr) : candidate.target = none := by
  cases part with
  | text node => rw [List.mem_singleton.mp present]
  | mustache node => exact Mustache.target_of_mem present

theorem AttributeValue.target_of_mem {attr : Option String} {value : AttributeValue}
    {candidate : Candidate} (present : candidate ∈ value.candidates attr) :
    candidate.target = none := by
  cases value with
  | text node => rw [List.mem_singleton.mp present]
  | mustache node => exact Mustache.target_of_mem present
  | concat node =>
    obtain ⟨part, _, inPart⟩ := List.mem_flatMap.mp present
    exact Part.target_of_mem inPart
  | other value => cases present

theorem Attribute.target_of_mem {rule : Rule} {tag : String} {tags : List String}
    {attributes : List Attribute} {candidate : Candidate}
    (present : candidate ∈ attributes.flatMap (Attribute.candidates rule tag tags)) :
    candidate.target = none := by
  obtain ⟨attr, _, inAttr⟩ := List.mem_flatMap.mp present
  unfold Attribute.candidates at inAttr
  split_ifs at inAttr
  · exact AttributeValue.target_of_mem inAttr
  · cases inAttr

/-! ## Candidates with a target -/

/-- The candidate of a text of the body. -/
def TextNode.candidate (text : TextNode) (place : Address) : Candidate :=
  ⟨text.chars, text.location, none, some place⟩

mutual
theorem Node.mem_candidates (rule : Rule) (tags : List String) (address : Address)
    (place : Address) (candidate : Candidate) : (node : Node) →
    (candidate ∈ node.candidates rule tags address ∧ candidate.target = some place ↔
      ∃ rest text, place = address ++ rest ∧ node.textAt? rest = some text ∧
        Visible (node.tagsAt tags rest) ∧ candidate = text.candidate place)
  | .text node => by
    simp only [Node.candidates, Node.textAt?_text_iff]
    constructor
    · rintro ⟨present, targeted⟩
      split_ifs at present with visible
      · obtain rfl := List.mem_singleton.mp present
        obtain rfl := Option.some.inj targeted
        exact ⟨[], node, by simp, ⟨rfl, rfl⟩, visible, rfl⟩
      · cases present
    · rintro ⟨_, _, rfl, ⟨rfl, rfl⟩, visible, rfl⟩
      have visible : Visible tags := visible
      simp [visible, TextNode.candidate]
  | .element tag attributes children location extra => by
    simp only [Node.candidates, List.mem_append, Node.textAt?_element_iff]
    constructor
    · rintro ⟨present | present, targeted⟩
      · cases (Attribute.target_of_mem present).symm.trans targeted
      · obtain ⟨i, rest, child, text, below, rfl, found, visible, rfl⟩ :=
          (Node.mem_listCandidates rule (tag :: tags) address .child 0 place candidate
            children).mp ⟨present, targeted⟩
        rw [Nat.zero_add] at *
        refine ⟨_, text, rfl, ⟨i, rest, child, rfl, below, found⟩, ?_, rfl⟩
        simpa only [Node.tagsAt, below, Option.elim_some] using visible
    · rintro ⟨_, text, rfl, ⟨i, rest, child, rfl, below, found⟩, visible, rfl⟩
      simp only [Node.tagsAt, below, Option.elim_some] at visible
      have listed := (Node.mem_listCandidates rule (tag :: tags) address .child 0 _ _ children).mpr
        ⟨i, rest, child, text, below, rfl, found, visible, rfl⟩
      rw [Nat.zero_add] at listed
      exact ⟨.inr listed.1, listed.2⟩
  | .mustache node => by
    simp only [Node.candidates, Node.textAt?_mustache, reduceCtorEq, false_and, and_false,
      exists_false, iff_false, not_and]
    intro present targeted
    split_ifs at present
    · cases (Mustache.target_of_mem present).symm.trans targeted
    · cases present
  | .block path program inverse location extra => by
    rw [Node.candidates, List.mem_append, or_and_right,
      Block.mem_candidates rule tags address .program place candidate program,
      Block.mem_optionCandidates rule tags address .inverse place candidate inverse]
    simp only [Node.textAt?_block_iff]
    constructor
    · rintro (⟨i, rest, child, text, below, rfl, found, visible, rfl⟩ |
        ⟨branch, i, rest, child, text, rfl, below, rfl, found, visible, rfl⟩)
      · refine ⟨_, text, rfl, .inl ⟨i, rest, child, rfl, below, found⟩, ?_, rfl⟩
        simpa only [Node.tagsAt, below, Option.elim_some] using visible
      · refine ⟨_, text, rfl, .inr ⟨branch, i, rest, child, rfl, rfl, below, found⟩, ?_, rfl⟩
        simpa only [Node.tagsAt, below, Option.elim_some] using visible
    · rintro ⟨_, text, rfl, ⟨i, rest, child, rfl, below, found⟩ |
        ⟨branch, i, rest, child, rfl, rfl, below, found⟩, visible, rfl⟩
      · simp only [Node.tagsAt, below, Option.elim_some] at visible
        exact .inl ⟨i, rest, child, text, below, rfl, found, visible, rfl⟩
      · simp only [Node.tagsAt, below, Option.elim_some] at visible
        exact .inr ⟨branch, i, rest, child, text, rfl, below, rfl, found, visible, rfl⟩
  | .other value => by simp [Node.candidates, Node.textAt?_other]
theorem Node.mem_listCandidates (rule : Rule) (tags : List String) (address : Address)
    (step : Nat → Step) (index : Nat) (place : Address) (candidate : Candidate) :
    (nodes : List Node) →
    (candidate ∈ Node.listCandidates rule tags address step index nodes ∧
        candidate.target = some place ↔
      ∃ i rest node text, nodes[i]? = some node ∧ place = address ++ step (index + i) :: rest ∧
        node.textAt? rest = some text ∧ Visible (node.tagsAt tags rest) ∧
        candidate = text.candidate place)
  | [] => by simp [Node.listCandidates]
  | node :: others => by
    simp only [Node.listCandidates, List.mem_append, or_and_right,
      Node.mem_candidates rule tags (address ++ [step index]) place candidate node,
      Node.mem_listCandidates rule tags address step (index + 1) place candidate others]
    constructor
    · rintro (⟨rest, text, rfl, found, visible, rfl⟩ |
        ⟨i, rest, child, text, below, rfl, found, visible, rfl⟩)
      · exact ⟨0, rest, node, text, rfl, by simp, found, visible, rfl⟩
      · exact ⟨i + 1, rest, child, text, below, by rw [Nat.add_right_comm, Nat.add_assoc], found,
          visible, rfl⟩
    · rintro ⟨i, rest, child, text, below, rfl, found, visible, rfl⟩
      cases i with
      | zero =>
        obtain rfl := Option.some.inj below
        exact .inl ⟨rest, text, by simp, found, visible, rfl⟩
      | succ i =>
        exact .inr ⟨i, rest, child, text, below, by rw [Nat.add_right_comm, Nat.add_assoc], found,
          visible, rfl⟩
theorem Block.mem_candidates (rule : Rule) (tags : List String) (address : Address)
    (step : Nat → Step) (place : Address) (candidate : Candidate) : (block : Block) →
    (candidate ∈ block.candidates rule tags address step ∧ candidate.target = some place ↔
      ∃ i rest node text, block.body[i]? = some node ∧ place = address ++ step i :: rest ∧
        node.textAt? rest = some text ∧ Visible (node.tagsAt tags rest) ∧
        candidate = text.candidate place)
  | .mk body _ => by
    have listed := Node.mem_listCandidates rule tags address step 0 place candidate body
    simp only [Nat.zero_add] at listed
    exact listed
theorem Block.mem_optionCandidates (rule : Rule) (tags : List String) (address : Address)
    (step : Nat → Step) (place : Address) (candidate : Candidate) : (branch : Option Block) →
    (candidate ∈ Block.optionCandidates rule tags address step branch ∧
        candidate.target = some place ↔
      ∃ block i rest node text, branch = some block ∧ block.body[i]? = some node ∧
        place = address ++ step i :: rest ∧ node.textAt? rest = some text ∧
        Visible (node.tagsAt tags rest) ∧ candidate = text.candidate place)
  | none => by simp [Block.optionCandidates]
  | some block => by
    rw [Block.optionCandidates, Block.mem_candidates rule tags address step place candidate block]
    simp
end

/-- The candidates with a target are the texts of the body that no ignored element encloses. -/
theorem Template.mem_candidates (rule : Rule) (template : Template) (place : Address)
    (candidate : Candidate) :
    candidate ∈ template.candidates rule ∧ candidate.target = some place ↔
      ∃ text, template.textAt? place = some text ∧ Visible (template.tagsAt place) ∧
        candidate = text.candidate place := by
  rw [Template.candidates, Node.mem_listCandidates]
  simp only [Template.textAt?_iff, Nat.zero_add, List.nil_append]
  constructor
  · rintro ⟨i, rest, node, text, below, rfl, found, visible, rfl⟩
    refine ⟨text, ⟨i, rest, node, rfl, below, found⟩, ?_, rfl⟩
    simpa only [Template.tagsAt, below, Option.elim_some] using visible
  · rintro ⟨text, ⟨i, rest, node, rfl, below, found⟩, visible, rfl⟩
    simp only [Template.tagsAt, below, Option.elim_some] at visible
    exact ⟨i, rest, node, text, below, rfl, found, visible, rfl⟩

/-! ## No target twice -/

mutual
theorem Node.targets_sublist (rule : Rule) (tags : List String) (address : Address) :
    (node : Node) → ((node.candidates rule tags address).filterMap Candidate.target).Sublist
      (Event.addresses (node.events address))
  | .text node => by
    by_cases visible : Visible tags <;>
      simp [Node.candidates, Node.events, Event.addresses, Event.text?, visible]
  | .element tag attributes children location extra => by
    have untargeted : (attributes.flatMap (Attribute.candidates rule tag tags)).filterMap
        Candidate.target = [] :=
      List.filterMap_eq_nil_iff.mpr fun _ present => Attribute.target_of_mem present
    rw [Node.candidates, List.filterMap_append, untargeted, List.nil_append, Event.addresses,
      Node.texts_element]
    exact Node.listTargets_sublist rule (tag :: tags) address .child 0 children
  | .mustache node => by
    have untargeted : ((Node.mustache node).candidates rule tags address).filterMap
        Candidate.target = [] := by
      refine List.filterMap_eq_nil_iff.mpr fun candidate present => ?_
      rw [Node.candidates] at present
      split_ifs at present
      · exact Mustache.target_of_mem present
      · cases present
    rw [untargeted]
    exact List.nil_sublist _
  | .block path program inverse location extra => by
    rw [Node.candidates, Node.events, List.filterMap_append, Event.addresses_append]
    exact (Block.targets_sublist rule tags address .program program).append
      (Block.optionTargets_sublist rule tags address .inverse inverse)
  | .other value => by simp [Node.candidates]
theorem Node.listTargets_sublist (rule : Rule) (tags : List String) (address : Address)
    (step : Nat → Step) (index : Nat) : (nodes : List Node) →
    ((Node.listCandidates rule tags address step index nodes).filterMap Candidate.target).Sublist
      (Event.addresses (Node.listEvents address step index nodes))
  | [] => by simp [Node.listCandidates]
  | node :: others => by
    rw [Node.listCandidates, Node.listEvents, List.filterMap_append, Event.addresses_append]
    exact (Node.targets_sublist rule tags (address ++ [step index]) node).append
      (Node.listTargets_sublist rule tags address step (index + 1) others)
theorem Block.targets_sublist (rule : Rule) (tags : List String) (address : Address)
    (step : Nat → Step) : (block : Block) →
    ((block.candidates rule tags address step).filterMap Candidate.target).Sublist
      (Event.addresses (block.events address step))
  | .mk body _ => Node.listTargets_sublist rule tags address step 0 body
theorem Block.optionTargets_sublist (rule : Rule) (tags : List String) (address : Address)
    (step : Nat → Step) : (branch : Option Block) →
    ((Block.optionCandidates rule tags address step branch).filterMap Candidate.target).Sublist
      (Event.addresses (Block.optionEvents address step branch))
  | none => by simp [Block.optionCandidates]
  | some block => Block.targets_sublist rule tags address step block
end

namespace Rule

variable (rule : Rule)

theorem accept?_eq_some_iff {candidate : Candidate} {finding : Finding} :
    rule.accept? candidate = some finding ↔
      candidate.location = some finding.location ∧
      Allowlist.bare? rule.allowlist candidate.raw = some candidate.raw ∧
      finding = ⟨candidate.raw, finding.location, candidate.attr, candidate.target⟩ := by
  rcases candidate with ⟨raw, location, attr, target⟩
  rcases finding with ⟨source, place, name, address⟩
  cases location with
  | none => simp [accept?]
  | some location =>
    simp only [accept?, Option.ite_none_right_eq_some, Option.some.injEq, Finding.mk.injEq]
    grind

/-- Findings with different places in the list of findings have different targets. -/
theorem nodup_targets (template : Template) :
    ((rule.findings template).filterMap Finding.target).Nodup := by
  have kept : ((rule.findings template).filterMap Finding.target).Sublist
      ((template.candidates rule).filterMap Candidate.target) := by
    rw [rule.findings_eq, List.filterMap_filterMap]
    induction template.candidates rule with
    | nil => exact List.Sublist.slnil
    | cons candidate rest ih =>
      cases accepted : rule.accept? candidate with
      | none =>
        simp only [List.filterMap_cons, accepted, Option.bind_none]
        cases candidate.target with
        | none => exact ih
        | some place => exact ih.cons place
      | some finding =>
        have same : finding.target = candidate.target := by
          rw [(rule.accept?_eq_some_iff.mp accepted).2.2]
        simp only [List.filterMap_cons, accepted, Option.bind_some, same]
        cases candidate.target with
        | none => exact ih
        | some place => exact ih.cons_cons place
  exact (kept.trans (Node.listTargets_sublist rule [] [] .child 0 template.body)).nodup
    template.nodup_addresses

/-- A finding with a target is that of the text there, which has a location, is bare, and stands in
no ignored element. -/
theorem mem_findings_targeted (template : Template) (place : Address) (finding : Finding) :
    finding ∈ rule.findings template ∧ finding.target = some place ↔
      ∃ text, template.textAt? place = some text ∧ Visible (template.tagsAt place) ∧
        text.location = some finding.location ∧
        Allowlist.bare? rule.allowlist text.chars = some text.chars ∧
        finding = ⟨text.chars, finding.location, none, some place⟩ := by
  rw [rule.findings_eq, List.mem_filterMap]
  constructor
  · rintro ⟨⟨candidate, present, accepted⟩, targeted⟩
    obtain ⟨located, bare, same⟩ := rule.accept?_eq_some_iff.mp accepted
    rw [same] at targeted
    obtain ⟨text, found, visible, rfl⟩ :=
      (template.mem_candidates rule place candidate).mp ⟨present, targeted⟩
    exact ⟨text, found, visible, located, bare, same⟩
  · rintro ⟨text, found, visible, located, bare, same⟩
    obtain ⟨present, targeted⟩ := (template.mem_candidates rule place (text.candidate place)).mpr
      ⟨text, found, visible, rfl⟩
    refine ⟨⟨text.candidate place, present, ?_⟩, by rw [same]⟩
    exact rule.accept?_eq_some_iff.mpr ⟨located, bare, same⟩

/-- The check with its stack of open elements reports exactly what the structure of the template
gives. In particular a text of the body is a finding if and only if no element around it is ignored,
it has a location and it is bare, and its own address is then the target. -/
theorem findings_exact (template : Template) :
    rule.findings template = (template.candidates rule).filterMap rule.accept? ∧
      ∀ place finding, finding ∈ rule.findings template ∧ finding.target = some place ↔
        ∃ text, template.textAt? place = some text ∧ Visible (template.tagsAt place) ∧
          text.location = some finding.location ∧
          Allowlist.bare? rule.allowlist text.chars = some text.chars ∧
          finding = ⟨text.chars, finding.location, none, some place⟩ :=
  ⟨rule.findings_eq template, rule.mem_findings_targeted template⟩

end Rule

end TemplateLint
