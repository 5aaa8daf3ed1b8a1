import Mathlib
import TemplateLint.Rule.Finding

/-! # Candidates for findings

A check walks a template with a stack of open elements. Here the same findings are described without
walk and stack: the candidates of a node follow from the node, its address and the tags of the
elements around it, and a candidate is a finding if it has a location and its text is bare.

`Rule.findings_eq` says that the two agree on every template. What carries the proof is that the
events of a node leave the stack as they found it, whatever is nested in the node.
-/

namespace TemplateLint

/-! ## Open elements -/

/-- Whether text inside elements with these tags is shown as prose: none of them is ignored. -/
def Visible (tags : List String) : Prop := ∀ tag ∈ tags, tag ∉ ignoredElements

instance (tags : List String) : Decidable (Visible tags) :=
  inferInstanceAs (Decidable (∀ tag ∈ tags, tag ∉ ignoredElements))

namespace Enclosing

/-- The stack of a walk inside elements with these tags, innermost first. -/
def ofTags : List String → Enclosing
  | [] => []
  | tag :: tags => (ofTags tags).push tag

@[simp] theorem pop_ofTags (tag : String) (tags : List String) :
    (ofTags (tag :: tags)).pop = ofTags tags := rfl

@[simp] theorem tag?_ofTags (tags : List String) : (ofTags tags).tag? = tags.head? := by
  cases tags <;> rfl

/-- The state that an element remembers from its opening is that of all elements around it. -/
theorem isIgnored_ofTags (tags : List String) :
    (ofTags tags).isIgnored = true ↔ ¬ Visible tags := by
  induction tags with
  | nil => simp [ofTags, isIgnored, Visible]
  | cons tag tags ih =>
    have opened : (ofTags (tag :: tags)).isIgnored =
        ((ofTags tags).isIgnored || ignoredElements.contains tag) := rfl
    rw [opened, Bool.or_eq_true, ih]
    simp only [Visible, List.contains_eq_mem, decide_eq_true_eq, List.forall_mem_cons]
    tauto

end Enclosing

/-! ## Candidates -/

/-- A text that the rule looks at. -/
structure Candidate where
  raw : String
  location : Option Location
  /-- The attribute whose value holds the text. -/
  attr : Option String
  /-- The address of the text, for text of the body. -/
  target : Option Address
deriving DecidableEq, Repr

/-- The finding of a candidate: it has a location and its text is bare. -/
def Rule.accept? (rule : Rule) (candidate : Candidate) : Option Finding :=
  match candidate.location with
  | some location =>
    if Allowlist.bare? rule.allowlist candidate.raw = some candidate.raw then
      some ⟨candidate.raw, location, candidate.attr, candidate.target⟩
    else none
  | none => none

/-- The candidates of a mustache: a literal in the place of the helper's name, located at itself or
at the mustache. -/
def Mustache.candidates (attr : Option String) (mustache : Mustache) : List Candidate :=
  match mustache.path, mustache.location with
  | .literal ⟨value, some location, _⟩, _ => [⟨value, some location, attr, none⟩]
  | .literal ⟨value, none, _⟩, location => [⟨value, location, attr, none⟩]
  | .path _, _ => []
  | .other _, _ => []

/-- The candidates of a part of a mixed attribute value. -/
def Part.candidates (attr : Option String) : Part → List Candidate
  | .text node => [⟨node.chars, node.location, attr, none⟩]
  | .mustache node => node.candidates attr

/-- The candidates of an attribute value. -/
def AttributeValue.candidates (attr : Option String) : AttributeValue → List Candidate
  | .text node => [⟨node.chars, node.location, attr, none⟩]
  | .mustache node => node.candidates attr
  | .concat node => node.parts.flatMap (Part.candidates attr)
  | .other _ => []

/-- Whether the rule names an attribute, for all elements or for those with a tag. -/
def Rule.Names (rule : Rule) (tag name : String) : Prop :=
  name ∈ rule.globalAttributes ∨ ∃ names ∈ rule.elementAttributes.lookup tag, name ∈ names

instance (rule : Rule) (tag name : String) : Decidable (rule.Names tag name) :=
  inferInstanceAs (Decidable (_ ∨ ∃ names ∈ rule.elementAttributes.lookup tag, name ∈ names))

/-- The candidates of an attribute of an element that stands inside elements with other tags. -/
def Attribute.candidates (rule : Rule) (tag : String) (tags : List String) (attr : Attribute) :
    List Candidate :=
  if Visible (tag :: tags) ∧ rule.Names tag attr.name then attr.value.candidates (some attr.name)
  else []

mutual
/-- The candidates of a node at an address, inside elements with these tags. -/
def Node.candidates (rule : Rule) (tags : List String) (address : Address) : Node → List Candidate
  | .text node =>
    if Visible tags then [⟨node.chars, node.location, none, some address⟩] else []
  | .element tag attributes children _ _ =>
    attributes.flatMap (Attribute.candidates rule tag tags) ++
      Node.listCandidates rule (tag :: tags) address .child 0 children
  | .mustache node => if Visible tags then node.candidates none else []
  | .block _ program inverse _ _ =>
    Block.candidates rule tags address .program program ++
      Block.optionCandidates rule tags address .inverse inverse
  | .other _ => []
/-- The candidates of nodes in a list, from an index on. -/
def Node.listCandidates (rule : Rule) (tags : List String) (address : Address)
    (step : Nat → Step) (index : Nat) : List Node → List Candidate
  | [] => []
  | node :: rest =>
    node.candidates rule tags (address ++ [step index]) ++
      Node.listCandidates rule tags address step (index + 1) rest
/-- The candidates of a branch of a block. -/
def Block.candidates (rule : Rule) (tags : List String) (address : Address)
    (step : Nat → Step) : Block → List Candidate
  | .mk body _ => Node.listCandidates rule tags address step 0 body
/-- The candidates of a branch that may be absent. -/
def Block.optionCandidates (rule : Rule) (tags : List String) (address : Address)
    (step : Nat → Step) : Option Block → List Candidate
  | none => []
  | some block => block.candidates rule tags address step
end

/-- The candidates of a template. -/
def Template.candidates (rule : Rule) (template : Template) : List Candidate :=
  Node.listCandidates rule [] [] .child 0 template.body

/-! ## One candidate after another -/

theorem Allowlist.bare?_eq_some {entries : List String} {raw source : String}
    (bare : bare? entries raw = some source) : source = raw := by
  unfold bare? at bare
  split_ifs at bare
  exact (Option.some.inj bare).symm

namespace Rule

variable (rule : Rule)

/-- The one place where a location and bareness are asked for serves every kind of candidate. -/
theorem textFindings_eq (raw : String) (location : Option Location) (attr : Option String)
    (target : Option Address) :
    rule.textFindings raw location attr target =
      [Candidate.mk raw location attr target].filterMap rule.accept? := by
  cases location with
  | none => simp [textFindings, accept?]
  | some location =>
    cases bare : Allowlist.bare? rule.allowlist raw with
    | none => simp [textFindings, accept?, bare]
    | some source =>
      obtain rfl := Allowlist.bare?_eq_some bare
      simp [textFindings, accept?, bare]

theorem mustacheFindings_eq (mustache : Mustache) (attr : Option String) :
    rule.mustacheFindings mustache attr = (mustache.candidates attr).filterMap rule.accept? := by
  rcases mustache with ⟨path, outer, extra⟩
  cases path with
  | literal node =>
    rcases node with ⟨value, inner, unread⟩
    cases inner <;> simp only [mustacheFindings, Mustache.candidates, textFindings_eq] <;> rfl
  | path node => rfl
  | other value => rfl

theorem partFindings_eq (attr : Option String) (part : Part) :
    rule.partFindings attr part = (part.candidates attr).filterMap rule.accept? := by
  cases part with
  | text node => exact rule.textFindings_eq ..
  | mustache node => exact rule.mustacheFindings_eq ..

theorem valueFindings_eq (attr : Option String) (value : AttributeValue) :
    rule.valueFindings attr value = (value.candidates attr).filterMap rule.accept? := by
  cases value with
  | text node => exact rule.textFindings_eq ..
  | mustache node => exact rule.mustacheFindings_eq ..
  | concat node =>
    simp only [valueFindings, AttributeValue.candidates, List.filterMap_flatMap,
      funext (rule.partFindings_eq attr)]
  | other value => rfl

theorem checksAttribute_iff (tag name : String) :
    rule.checksAttribute (some tag) name = true ↔ rule.Names tag name := by
  simp only [checksAttribute, Names, Bool.or_eq_true, List.contains_eq_mem, decide_eq_true_eq,
    Option.bind_some]
  cases rule.elementAttributes.lookup tag <;> simp

/-! ## One event after another -/

theorem step_enter (tag : String) (tags : List String) (found : List Finding) :
    rule.step ⟨.ofTags tags, found⟩ (.enter tag) = ⟨.ofTags (tag :: tags), found⟩ := rfl

/-- Leaving an element gives back the stack from before it was entered. -/
theorem step_exit (tag : String) (tags : List String) (found : List Finding) :
    rule.step ⟨.ofTags (tag :: tags), found⟩ (.exit tag) = ⟨.ofTags tags, found⟩ := rfl

/-- Inside an ignored element an attribute event changes nothing; elsewhere it adds the findings of
the candidates. -/
theorem step_attr (tag : String) (tags : List String) (found : List Finding) (attr : Attribute) :
    rule.step ⟨.ofTags (tag :: tags), found⟩ (.attr attr) =
      ⟨.ofTags (tag :: tags),
        found ++ (attr.candidates rule tag tags).filterMap rule.accept?⟩ := by
  have ignored := Enclosing.isIgnored_ofTags (tag :: tags)
  by_cases visible : Visible (tag :: tags)
  · by_cases named : rule.Names tag attr.name
    · simp [step, ignored, visible, named, eventFindings, attributeFindings, Attribute.candidates,
        checksAttribute_iff, valueFindings_eq]
    · simp [step, ignored, visible, named, eventFindings, attributeFindings, Attribute.candidates,
        checksAttribute_iff]
  · simp [step, ignored, visible, Attribute.candidates]

theorem foldl_attributes (tag : String) (tags : List String) (attributes : List Attribute)
    (found : List Finding) :
    (attributes.map Event.attr).foldl rule.step ⟨.ofTags (tag :: tags), found⟩ =
      ⟨.ofTags (tag :: tags),
        found ++ (attributes.flatMap (Attribute.candidates rule tag tags)).filterMap
          rule.accept?⟩ := by
  induction attributes generalizing found with
  | nil => simp
  | cons attr rest ih =>
    rw [List.map_cons, List.foldl_cons, step_attr, ih]
    simp only [List.flatMap_cons, List.filterMap_append, List.append_assoc]

theorem step_text (tags : List String) (found : List Finding) (node : TextNode)
    (address : Address) :
    rule.step ⟨.ofTags tags, found⟩ (.text node address) =
      ⟨.ofTags tags,
        found ++ ((Node.text node).candidates rule tags address).filterMap rule.accept?⟩ := by
  have ignored := Enclosing.isIgnored_ofTags tags
  by_cases visible : Visible tags
  · simp [step, ignored, visible, eventFindings, Node.candidates, textFindings_eq]
  · simp [step, ignored, visible, Node.candidates]

theorem step_mustache (tags : List String) (found : List Finding) (node : Mustache)
    (address : Address) :
    rule.step ⟨.ofTags tags, found⟩ (.mustache node) =
      ⟨.ofTags tags,
        found ++ ((Node.mustache node).candidates rule tags address).filterMap rule.accept?⟩ := by
  have ignored := Enclosing.isIgnored_ofTags tags
  by_cases visible : Visible tags
  · simp [step, ignored, visible, eventFindings, Node.candidates, mustacheFindings_eq]
  · simp [step, ignored, visible, Node.candidates]

end Rule

/-! ## Whole nodes

A run over the events of a node starts and ends with the same stack, so the findings of nodes that
follow each other are appended. The recursion is that of the events: node, list, branch.
-/

mutual
theorem Node.foldl_events (rule : Rule) (tags : List String) (address : Address)
    (found : List Finding) : (node : Node) →
    (node.events address).foldl rule.step ⟨.ofTags tags, found⟩ =
      ⟨.ofTags tags, found ++ (node.candidates rule tags address).filterMap rule.accept?⟩
  | .text node => rule.step_text tags found node address
  | .element tag attributes children location extra => by
    simp only [Node.events, Node.candidates, List.foldl_cons, List.foldl_append, Rule.step_enter,
      Rule.foldl_attributes, Node.foldl_listEvents rule (tag :: tags) address .child 0 _ children,
      List.foldl_nil, Rule.step_exit, List.filterMap_append, List.append_assoc]
  | .mustache node => rule.step_mustache tags found node address
  | .block path program inverse location extra => by
    simp only [Node.events, Node.candidates, List.foldl_append,
      Block.foldl_events rule tags address .program _ program,
      Block.foldl_optionEvents rule tags address .inverse _ inverse,
      List.filterMap_append, List.append_assoc]
  | .other value => by simp [Node.events, Node.candidates]
theorem Node.foldl_listEvents (rule : Rule) (tags : List String) (address : Address)
    (step : Nat → Step) (index : Nat) (found : List Finding) : (nodes : List Node) →
    (Node.listEvents address step index nodes).foldl rule.step ⟨.ofTags tags, found⟩ =
      ⟨.ofTags tags,
        found ++ (Node.listCandidates rule tags address step index nodes).filterMap rule.accept?⟩
  | [] => by simp [Node.listEvents, Node.listCandidates]
  | node :: rest => by
    simp only [Node.listEvents, Node.listCandidates, List.foldl_append,
      Node.foldl_events rule tags (address ++ [step index]) _ node,
      Node.foldl_listEvents rule tags address step (index + 1) _ rest,
      List.filterMap_append, List.append_assoc]
theorem Block.foldl_events (rule : Rule) (tags : List String) (address : Address)
    (step : Nat → Step) (found : List Finding) : (block : Block) →
    (block.events address step).foldl rule.step ⟨.ofTags tags, found⟩ =
      ⟨.ofTags tags,
        found ++ (block.candidates rule tags address step).filterMap rule.accept?⟩
  | .mk body _ => Node.foldl_listEvents rule tags address step 0 found body
theorem Block.foldl_optionEvents (rule : Rule) (tags : List String) (address : Address)
    (step : Nat → Step) (found : List Finding) : (branch : Option Block) →
    (Block.optionEvents address step branch).foldl rule.step ⟨.ofTags tags, found⟩ =
      ⟨.ofTags tags,
        found ++ (Block.optionCandidates rule tags address step branch).filterMap rule.accept?⟩
  | none => by simp [Block.optionEvents, Block.optionCandidates]
  | some block => Block.foldl_events rule tags address step found block
end

/-- The check with its stack reports exactly the candidates that have a location and are bare, in
the order of the tree. -/
theorem Rule.findings_eq (rule : Rule) (template : Template) :
    rule.findings template = (template.candidates rule).filterMap rule.accept? := by
  have run := Node.foldl_listEvents rule [] [] .child 0 [] template.body
  exact congrArg Rule.Progress.findings run

end TemplateLint
