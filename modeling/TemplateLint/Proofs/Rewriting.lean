import Mathlib
import TemplateLint.Proofs.Addresses

/-! # Templates with texts replaced

`Template.rewrite` gives the texts at some addresses new characters, all at once, and keeps every
other part of a template by the shape of its definition. Changing one text after another comes to
the same: `Template.setTextAt_rewrite` is the step, and it needs no condition on the address, since
without a text there neither side changes anything.
-/

namespace TemplateLint

mutual
/-- A node with the characters of its texts replaced where there are new ones for their address. -/
def Node.rewrite (chars : Address → Option String) : Node → Node
  | .text node => .text { node with chars := (chars []).getD node.chars }
  | .element tag attributes children location extra =>
    .element tag attributes (Node.listRewrite (fun i rest => chars (.child i :: rest)) children)
      location extra
  | .mustache node => .mustache node
  | .block path program inverse location extra =>
    .block path (Block.rewrite (fun i rest => chars (.program i :: rest)) program)
      (Block.optionRewrite (fun i rest => chars (.inverse i :: rest)) inverse) location extra
  | .other value => .other value
/-- Nodes with the characters of their texts replaced, by index and address below it. -/
def Node.listRewrite (chars : Nat → Address → Option String) : List Node → List Node
  | [] => []
  | node :: rest => node.rewrite (chars 0) :: Node.listRewrite (fun i => chars (i + 1)) rest
/-- A branch of a block with the characters of its texts replaced. -/
def Block.rewrite (chars : Nat → Address → Option String) : Block → Block
  | .mk body extra => .mk (Node.listRewrite chars body) extra
/-- A branch that may be absent with the characters of its texts replaced. -/
def Block.optionRewrite (chars : Nat → Address → Option String) : Option Block → Option Block
  | none => none
  | some block => some (block.rewrite chars)
end

/-- A template with the characters of its texts replaced where there are new ones for their
address. -/
def Template.rewrite (chars : Address → Option String) (template : Template) : Template :=
  { template with
    body := Node.listRewrite (fun i rest => chars (.child i :: rest)) template.body }

/-! ## Lookup -/

theorem Node.getElem?_listRewrite (chars : Nat → Address → Option String) (nodes : List Node)
    (i : Nat) : (Node.listRewrite chars nodes)[i]? = nodes[i]?.map (Node.rewrite (chars i)) := by
  induction nodes generalizing chars i with
  | nil => rfl
  | cons node rest ih =>
    cases i with
    | zero => rfl
    | succ i => simpa only [Node.listRewrite, List.getElem?_cons_succ] using ih _ i

theorem Block.body_rewrite (chars : Nat → Address → Option String) (block : Block) :
    (block.rewrite chars).body = Node.listRewrite chars block.body := by
  cases block; rfl

/-- New characters, or those that a text has. -/
def TextNode.withChars (chars : Option String) (node : TextNode) : TextNode :=
  { node with chars := chars.getD node.chars }

theorem Node.textAt?_rewrite (chars : Address → Option String) (address : Address) (node : Node) :
    (node.rewrite chars).textAt? address =
      (node.textAt? address).map (TextNode.withChars (chars address)) := by
  induction address generalizing chars node with
  | nil => cases node <;> rfl
  | cons step rest ih =>
    cases node with
    | text node => cases step <;> rfl
    | mustache node => cases step <;> rfl
    | other value => cases step <;> rfl
    | element tag attributes children location extra =>
      cases step with
      | child i =>
        simp only [Node.rewrite, Node.textAt?, Node.getElem?_listRewrite]
        cases children[i]? <;> simp [ih]
      | program i => rfl
      | inverse i => rfl
    | block path program inverse location extra =>
      cases step with
      | child i => cases inverse <;> rfl
      | program i =>
        simp only [Node.rewrite, Node.textAt?, Block.body_rewrite, Node.getElem?_listRewrite]
        cases program.body[i]? <;> simp [ih]
      | inverse i =>
        cases inverse with
        | none => rfl
        | some branch =>
          simp only [Node.rewrite, Block.optionRewrite, Node.textAt?, Block.body_rewrite,
            Node.getElem?_listRewrite]
          cases branch.body[i]? <;> simp [ih]

/-- After a rewriting, a text has the new characters for its address, and otherwise its own. -/
theorem Template.textAt?_rewrite (chars : Address → Option String) (address : Address)
    (template : Template) :
    (template.rewrite chars).textAt? address =
      (template.textAt? address).map (TextNode.withChars (chars address)) := by
  cases address with
  | nil => rfl
  | cons step rest =>
    cases step with
    | child i =>
      simp only [Template.textAt?, Template.rewrite, Node.getElem?_listRewrite]
      cases template.body[i]? <;> simp [Node.textAt?_rewrite]
    | program i => rfl
    | inverse i => rfl

/-! ## One text after another -/

section Update

variable (chars : Address → Option String) (text : Option String)

private theorem update_below (step : Step) (rest : Address) :
    (fun below => Function.update chars (step :: rest) text (step :: below)) =
      Function.update (fun below => chars (step :: below)) rest text := by
  funext below
  by_cases same : below = rest
  · subst same
    simp
  · simp [Function.update_of_ne, same]

private theorem update_beside {step other : Step} (differ : other ≠ step) (rest : Address) :
    (fun below => Function.update chars (step :: rest) text (other :: below)) =
      fun below => chars (other :: below) := by
  funext below
  exact Function.update_of_ne (by simp [differ]) _ _

private theorem update_here (step : Step) (rest : Address) :
    Function.update chars (step :: rest) text [] = chars [] :=
  Function.update_of_ne (by simp) _ _

private theorem update_under (step : Step) (below : Address) :
    Function.update chars [] text (step :: below) = chars (step :: below) :=
  Function.update_of_ne (by simp) _ _

end Update

/-- A change to one node of a list is a rewriting, if it is one of that node. -/
theorem Node.modify_listRewrite {chars after : Nat → Address → Option String} {i : Nat}
    {change : Node → Node} (nodes : List Node)
    (here : ∀ node : Node, change (node.rewrite (chars i)) = node.rewrite (after i))
    (beside : ∀ j, j ≠ i → after j = chars j) :
    (Node.listRewrite chars nodes).modify i change = Node.listRewrite after nodes := by
  induction nodes generalizing chars after i with
  | nil => simp [Node.listRewrite]
  | cons node rest ih =>
    cases i with
    | zero =>
      have others : (fun j => after (j + 1)) = fun j => chars (j + 1) :=
        funext fun j => beside (j + 1) (Nat.succ_ne_zero j)
      simp only [Node.listRewrite, List.modify_zero_cons, here, others]
    | succ i =>
      have tail := @ih (fun j => chars (j + 1)) (fun j => after (j + 1)) i here
        fun j differ => beside (j + 1) (by omega)
      simp only [Node.listRewrite, List.modify_succ_cons, beside 0 (Nat.succ_ne_zero i).symm, tail]

/-- The nodes behind one kind of step, when the text behind such a step changes. -/
private theorem Node.modify_listRewrite_update (chars : Address → Option String) (text : String)
    (step : Nat → Step) (injective : ∀ {i j}, step i = step j → i = j) (i : Nat) (rest : Address)
    (ih : ∀ (chars : Address → Option String) (node : Node),
      (node.rewrite chars).setTextAt text rest =
        node.rewrite (Function.update chars rest (some text)))
    (nodes : List Node) :
    (Node.listRewrite (fun j below => chars (step j :: below)) nodes).modify i
        (Node.setTextAt text rest) =
      Node.listRewrite
        (fun j below => Function.update chars (step i :: rest) (some text) (step j :: below))
        nodes := by
  apply Node.modify_listRewrite
  · intro node
    rw [ih, update_below]
  · intro j differ
    exact update_beside chars _ (fun same => differ (injective same)) rest

theorem Node.setTextAt_rewrite (text : String) (address : Address)
    (chars : Address → Option String) (node : Node) :
    (node.rewrite chars).setTextAt text address =
      node.rewrite (Function.update chars address (some text)) := by
  induction address generalizing chars node with
  | nil =>
    cases node with
    | text node => simp [Node.rewrite, Node.setTextAt]
    | element tag attributes children location extra =>
      simp only [Node.rewrite, Node.setTextAt, update_under]
    | mustache node => rfl
    | block path program inverse location extra =>
      simp only [Node.rewrite, Node.setTextAt, update_under]
    | other value => rfl
  | cons step rest ih =>
    cases node with
    | text node => cases step <;> simp only [Node.rewrite, Node.setTextAt, update_here]
    | mustache node => cases step <;> rfl
    | other value => cases step <;> rfl
    | element tag attributes children location extra =>
      cases step with
      | child i =>
        simp only [Node.rewrite, Node.setTextAt]
        rw [Node.modify_listRewrite_update chars text .child Step.child.inj i rest ih]
      | program i => simp [Node.rewrite, Node.setTextAt]
      | inverse i => simp [Node.rewrite, Node.setTextAt]
    | block path program inverse location extra =>
      rcases program with ⟨body, unread⟩
      cases step with
      | child i => cases inverse <;> simp [Node.rewrite, Node.setTextAt]
      | program i =>
        simp only [Node.rewrite, Block.rewrite, Node.setTextAt]
        rw [Node.modify_listRewrite_update chars text .program Step.program.inj i rest ih]
        simp
      | inverse i =>
        cases inverse with
        | none => simp [Node.rewrite, Block.optionRewrite, Node.setTextAt]
        | some branch =>
          rcases branch with ⟨others, more⟩
          simp only [Node.rewrite, Block.optionRewrite, Block.rewrite, Node.setTextAt]
          rw [Node.modify_listRewrite_update chars text .inverse Step.inverse.inj i rest ih]
          simp

/-- Changing one more text is a rewriting with one more entry. -/
theorem Template.setTextAt_rewrite (text : String) (address : Address)
    (chars : Address → Option String) (template : Template) :
    (template.rewrite chars).setTextAt address text =
      template.rewrite (Function.update chars address (some text)) := by
  cases address with
  | nil => simp only [Template.setTextAt, Template.rewrite, update_under]
  | cons step rest =>
    cases step with
    | child i =>
      simp only [Template.setTextAt, Template.rewrite]
      rw [Node.modify_listRewrite_update chars text .child Step.child.inj i rest
        fun chars node => Node.setTextAt_rewrite text rest chars node]
    | program i => simp [Template.setTextAt, Template.rewrite]
    | inverse i => simp [Template.setTextAt, Template.rewrite]

/-! ## Nothing to replace -/

mutual
theorem Node.rewrite_none : (node : Node) → node.rewrite (fun _ => none) = node
  | .text _ => rfl
  | .element tag attributes children location extra => by
    rw [Node.rewrite, Node.listRewrite_none children]
  | .mustache _ => rfl
  | .block path program inverse location extra => by
    rw [Node.rewrite, Block.rewrite_none program, Block.optionRewrite_none inverse]
  | .other _ => rfl
theorem Node.listRewrite_none : (nodes : List Node) →
    Node.listRewrite (fun _ _ => none) nodes = nodes
  | [] => rfl
  | node :: rest => by
    rw [Node.listRewrite, Node.rewrite_none node, Node.listRewrite_none rest]
theorem Block.rewrite_none : (block : Block) → block.rewrite (fun _ _ => none) = block
  | .mk body _ => by rw [Block.rewrite, Node.listRewrite_none body]
theorem Block.optionRewrite_none : (branch : Option Block) →
    Block.optionRewrite (fun _ _ => none) branch = branch
  | none => rfl
  | some block => by rw [Block.optionRewrite, Block.rewrite_none block]
end

theorem Template.rewrite_none (template : Template) :
    template.rewrite (fun _ => none) = template := by
  simp only [Template.rewrite, Node.listRewrite_none]

end TemplateLint
