import Mathlib
import TemplateLint.Proofs.Walking

/-! # Edits of texts

An edit looks up the text at an address and may give it new characters. The address may lead to
nothing; then nothing is found and nothing changes. Edits one after another come to a single
rewriting, by the characters that were last set at each address: `Template.edit_rewrite` is the step
and `Template.editEach_rewrite` the run. What an address finds, what a walk meets and that nothing
else changes are then facts about rewritings.
-/

namespace TemplateLint

/-! ## Rewritings of rewritings -/

mutual
theorem Node.rewrite_rewrite (first second : Address → Option String) : (node : Node) →
    (node.rewrite first).rewrite second =
      node.rewrite fun address => (second address).or (first address)
  | .text node => by
    simp only [Node.rewrite]
    cases second [] <;> rfl
  | .element tag attributes children location extra => by
    simp only [Node.rewrite, Node.listRewrite_listRewrite _ _ children]
  | .mustache _ => rfl
  | .block path program inverse location extra => by
    simp only [Node.rewrite, Block.rewrite_rewrite _ _ program,
      Block.optionRewrite_optionRewrite _ _ inverse]
  | .other _ => rfl
theorem Node.listRewrite_listRewrite (first second : Nat → Address → Option String) :
    (nodes : List Node) → Node.listRewrite second (Node.listRewrite first nodes) =
      Node.listRewrite (fun i address => (second i address).or (first i address)) nodes
  | [] => rfl
  | node :: rest => by
    simp only [Node.listRewrite, Node.rewrite_rewrite _ _ node,
      Node.listRewrite_listRewrite _ _ rest]
theorem Block.rewrite_rewrite (first second : Nat → Address → Option String) : (block : Block) →
    (block.rewrite first).rewrite second =
      block.rewrite fun i address => (second i address).or (first i address)
  | .mk body _ => by simp only [Block.rewrite, Node.listRewrite_listRewrite _ _ body]
theorem Block.optionRewrite_optionRewrite (first second : Nat → Address → Option String) :
    (branch : Option Block) → Block.optionRewrite second (Block.optionRewrite first branch) =
      Block.optionRewrite (fun i address => (second i address).or (first i address)) branch
  | none => rfl
  | some block => by simp only [Block.optionRewrite, Block.rewrite_rewrite _ _ block]
end

/-- Of two rewritings, the second wins where it has characters. -/
theorem Template.rewrite_rewrite (first second : Address → Option String) (template : Template) :
    (template.rewrite first).rewrite second =
      template.rewrite fun address => (second address).or (first address) := by
  simp only [Template.rewrite, Node.listRewrite_listRewrite]

mutual
theorem Node.rewrite_eq_self (chars : Address → Option String) : (node : Node) →
    (∀ address text, node.textAt? address = some text →
      (chars address).getD text.chars = text.chars) → node.rewrite chars = node
  | .text node => by
    intro known
    rw [Node.rewrite, known [] node rfl]
  | .element tag attributes children location extra => by
    intro known
    rw [Node.rewrite, Node.listRewrite_eq_self _ children]
    intro i child here address text found
    exact known _ text (Node.textAt?_element_iff.mpr ⟨i, address, child, rfl, here, found⟩)
  | .mustache _ => fun _ => rfl
  | .block path program inverse location extra => by
    intro known
    rw [Node.rewrite, Block.rewrite_eq_self _ program, Block.optionRewrite_eq_self _ inverse]
    · intro branch here i child there address text found
      exact known _ text (Node.textAt?_block_iff.mpr
        (.inr ⟨branch, i, address, child, here, rfl, there, found⟩))
    · intro i child here address text found
      exact known _ text (Node.textAt?_block_iff.mpr
        (.inl ⟨i, address, child, rfl, here, found⟩))
  | .other _ => fun _ => rfl
theorem Node.listRewrite_eq_self (chars : Nat → Address → Option String) : (nodes : List Node) →
    (∀ i node, nodes[i]? = some node → ∀ address text, node.textAt? address = some text →
      (chars i address).getD text.chars = text.chars) → Node.listRewrite chars nodes = nodes
  | [] => fun _ => rfl
  | node :: rest => by
    intro known
    rw [Node.listRewrite, Node.rewrite_eq_self (chars 0) node (known 0 node rfl),
      Node.listRewrite_eq_self (fun i => chars (i + 1)) rest fun i => known (i + 1)]
theorem Block.rewrite_eq_self (chars : Nat → Address → Option String) : (block : Block) →
    (∀ i node, block.body[i]? = some node → ∀ address text, node.textAt? address = some text →
      (chars i address).getD text.chars = text.chars) → block.rewrite chars = block
  | .mk body extra => by
    intro known
    rw [Block.rewrite, Node.listRewrite_eq_self chars body known]
theorem Block.optionRewrite_eq_self (chars : Nat → Address → Option String) :
    (branch : Option Block) →
    (∀ block, branch = some block → ∀ i node, block.body[i]? = some node → ∀ address text,
      node.textAt? address = some text → (chars i address).getD text.chars = text.chars) →
      Block.optionRewrite chars branch = branch
  | none => fun _ => rfl
  | some block => by
    intro known
    rw [Block.optionRewrite, Block.rewrite_eq_self chars block (known block rfl)]
end

/-- A rewriting that has no characters for a text but its own changes nothing. -/
theorem Template.rewrite_eq_self {chars : Address → Option String} {template : Template}
    (known : ∀ address text, template.textAt? address = some text →
      (chars address).getD text.chars = text.chars) : template.rewrite chars = template := by
  rw [Template.rewrite, Node.listRewrite_eq_self _ template.body]
  intro i node here address text found
  exact known _ text (Template.textAt?_iff.mpr ⟨i, address, node, rfl, here, found⟩)

/-! ## Edits -/

/-- A text is looked up, and given new characters if there are some. -/
structure Edit where
  address : Address
  chars : Option String
deriving DecidableEq

/-- The characters that edits set last at an address. -/
def Edit.last? (edits : List Edit) (address : Address) : Option String :=
  edits.reverse.findSome? fun edit => if edit.address = address then edit.chars else none

theorem Edit.last?_cons (edit : Edit) (rest : List Edit) (address : Address) :
    Edit.last? (edit :: rest) address =
      (Edit.last? rest address).or (if edit.address = address then edit.chars else none) := by
  simp [Edit.last?, List.findSome?_append]

namespace Template

/-- The template after an edit. -/
def edit (template : Template) (edit : Edit) : Template :=
  match edit.chars with
  | none => template
  | some chars => template.setTextAt edit.address chars

/-- What edits find one after another, and the template after them. -/
def editEach (template : Template) : List Edit → List (Option TextNode) × Template
  | [] => ([], template)
  | edit :: rest =>
    let (found, after) := (template.edit edit).editEach rest
    (template.textAt? edit.address :: found, after)

/-- One edit of a rewritten template is one more entry of the rewriting, or none. -/
theorem edit_rewrite (template : Template) (chars : Address → Option String) (edit : Edit) :
    (template.rewrite chars).edit edit = template.rewrite fun address =>
      (if edit.address = address then edit.chars else none).or (chars address) := by
  rcases edit with ⟨place, none | text⟩
  · simp [Template.edit]
  · simp only [Template.edit, Template.setTextAt_rewrite]
    congr 1
    funext address
    by_cases same : place = address
    · subst same
      simp
    · simp [same, Function.update_of_ne (Ne.symm same)]

/-- Edits come to the rewriting by what they set last. -/
theorem editEach_rewrite (template : Template) (chars : Address → Option String)
    (edits : List Edit) : ((template.rewrite chars).editEach edits).2 =
      template.rewrite fun address => (Edit.last? edits address).or (chars address) := by
  induction edits generalizing chars with
  | nil => simp [editEach, Edit.last?]
  | cons edit rest ih => simp only [editEach, edit_rewrite, ih, Edit.last?_cons, Option.or_assoc]

theorem editEach_eq (template : Template) (edits : List Edit) :
    (template.editEach edits).2 = template.rewrite (Edit.last? edits) := by
  have run := template.editEach_rewrite (fun _ => none) edits
  simpa only [rewrite_none, Option.or_none] using run

/-- An edit finds what the template holds after those before it. -/
theorem getElem?_editEach (template : Template) (edits : List Edit) (k : Nat) :
    (template.editEach edits).1[k]? = edits[k]?.map fun edit =>
      (template.editEach (edits.take k)).2.textAt? edit.address := by
  induction edits generalizing template k with
  | nil => rfl
  | cons edit rest ih =>
    cases k with
    | zero => rfl
    | succ k => simpa only [editEach, List.getElem?_cons_succ, List.take_succ_cons] using ih _ k

/-- The characters of the texts of a template. -/
def charsAt? (template : Template) (address : Address) : Option String :=
  (template.textAt? address).map TextNode.chars

/-- A rewriting can be undone by the characters of the texts. -/
theorem rewrite_charsAt? (template : Template) (chars : Address → Option String) :
    (template.rewrite chars).rewrite template.charsAt? = template := by
  rw [rewrite_rewrite]
  refine rewrite_eq_self fun address text found => ?_
  simp [charsAt?, found]

/-- To set the characters that a text has is to change nothing. -/
theorem setTextAt_self {template : Template} {address : Address} {text : TextNode}
    (found : template.textAt? address = some text) :
    template.setTextAt address text.chars = template := by
  have changed := template.setTextAt_rewrite text.chars address (fun _ => none)
  rw [rewrite_none] at changed
  rw [changed]
  refine rewrite_eq_self fun other node there => ?_
  by_cases same : other = address
  · subst same
    obtain rfl := Option.some.inj (found.symm.trans there)
    simp
  · simp [Function.update_of_ne same]

end Template

/-- Edits of texts at any addresses keep each other apart. After any edits, and so at any moment of
a longer sequence, an address leads to a text if it did at the start, and the text has the
characters that were last set there, or else its first ones; that is also what each edit on the way
finds. A walk meets what it met at the start, with these characters. Nothing else of the template
has changed: with the first characters of its texts it is the first template again. To set the
characters that are there is no change. -/
theorem edits_keep_apart (template : Template) (edits : List Edit) :
    (∀ address, ((template.editEach edits).2.textAt? address).isSome =
      (template.textAt? address).isSome) ∧
    (∀ address, (template.editEach edits).2.textAt? address =
      (template.textAt? address).map (TextNode.withChars (Edit.last? edits address))) ∧
    (∀ k, (template.editEach edits).1[k]? = edits[k]?.map fun edit =>
      (template.textAt? edit.address).map
        (TextNode.withChars (Edit.last? (edits.take k) edit.address))) ∧
    (template.editEach edits).2.events =
      template.events.map (Event.rewrite (Edit.last? edits)) ∧
    (template.editEach edits).2 = template.rewrite (Edit.last? edits) ∧
    (template.editEach edits).2.rewrite template.charsAt? = template ∧
    ∀ address text, template.textAt? address = some text →
      template.setTextAt address text.chars = template := by
  have lookup (edits : List Edit) (address : Address) :
      (template.editEach edits).2.textAt? address =
        (template.textAt? address).map (TextNode.withChars (Edit.last? edits address)) := by
    rw [template.editEach_eq, Template.textAt?_rewrite]
  refine ⟨fun address => ?_, lookup edits, fun k => ?_, ?_, template.editEach_eq edits, ?_,
    fun address text => Template.setTextAt_self⟩
  · rw [lookup, Option.isSome_map]
  · simp only [template.getElem?_editEach, lookup]
  · rw [template.editEach_eq, Template.events_rewrite]
  · rw [template.editEach_eq, Template.rewrite_charsAt?]

/-- The address of the text in the nested sample. -/
def sampleNestedPlace : Address := [.child 0, .child 0, .inverse 1]

/-- The text is changed, then an element is asked for text, then the text is looked up. -/
def sampleNestedEdits : List Edit :=
  [⟨sampleNestedPlace, some "Yo"⟩, ⟨[.child 0], some "No"⟩, ⟨sampleNestedPlace, none⟩]

theorem sampleNested_edits_keep_apart :
    sampleNested.textAt? sampleNestedPlace = some ⟨"Hi", none, []⟩ ∧
    (sampleNested.editEach sampleNestedEdits).1[1]? = some none ∧
    (sampleNested.editEach sampleNestedEdits).1[2]? = some (some ⟨"Yo", none, []⟩) ∧
    sampleNested.setTextAt sampleNestedPlace "Hi" = sampleNested := by
  have here : sampleNested.textAt? sampleNestedPlace = some ⟨"Hi", none, []⟩ := rfl
  obtain ⟨-, -, found, -, -, -, own⟩ := edits_keep_apart sampleNested sampleNestedEdits
  exact ⟨here, found 1, found 2, own _ _ here⟩

end TemplateLint
