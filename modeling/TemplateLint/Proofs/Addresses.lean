import Mathlib
import TemplateLint.Template.Event

/-! # Addresses and texts

A walk and a lookup agree on where the texts of a template are: the walk meets the texts that lookup
finds, each at its own address and at no other. The tags of the elements around an address are read
off the template in the same way as the text there.
-/

namespace TemplateLint

/-- The text of an event, with its address. -/
def Event.text? : Event → Option (Address × TextNode)
  | .text node address => some (address, node)
  | _ => none

/-- The texts that a walk meets. -/
def Template.texts (template : Template) : List (Address × TextNode) :=
  template.events.filterMap Event.text?

/-! ## Lookup by kind of node -/

namespace Node

theorem textAt?_text_iff {node found : TextNode} {address : Address} :
    (Node.text node).textAt? address = some found ↔ address = [] ∧ node = found := by
  cases address <;> simp [textAt?]

theorem textAt?_element_iff {tag : String} {attributes : List Attribute} {children : List Node}
    {location : Option Location} {extra : Members} {found : TextNode} {address : Address} :
    (Node.element tag attributes children location extra).textAt? address = some found ↔
      ∃ i rest child, address = .child i :: rest ∧ children[i]? = some child ∧
        child.textAt? rest = some found := by
  cases address with
  | nil => simp [textAt?]
  | cons step rest => cases step <;> simp [textAt?, Option.bind_eq_some_iff]

theorem textAt?_block_iff {path : Expression} {program : Block} {inverse : Option Block}
    {location : Option Location} {extra : Members} {found : TextNode} {address : Address} :
    (Node.block path program inverse location extra).textAt? address = some found ↔
      (∃ i rest child, address = .program i :: rest ∧ program.body[i]? = some child ∧
        child.textAt? rest = some found) ∨
      ∃ branch i rest child, inverse = some branch ∧ address = .inverse i :: rest ∧
        branch.body[i]? = some child ∧ child.textAt? rest = some found := by
  cases address with
  | nil => simp [textAt?]
  | cons step rest => cases step <;> cases inverse <;> simp [textAt?, Option.bind_eq_some_iff]

theorem textAt?_mustache (node : Mustache) (address : Address) :
    (Node.mustache node).textAt? address = none := by
  cases address with
  | nil => rfl
  | cons step rest => cases step <;> rfl

theorem textAt?_other (value : Json) (address : Address) :
    (Node.other value).textAt? address = none := by
  cases address with
  | nil => rfl
  | cons step rest => cases step <;> rfl

end Node

theorem Template.textAt?_iff {template : Template} {found : TextNode} {address : Address} :
    template.textAt? address = some found ↔
      ∃ i rest node, address = .child i :: rest ∧ template.body[i]? = some node ∧
        node.textAt? rest = some found := by
  cases address with
  | nil => simp [textAt?]
  | cons step rest => cases step <;> simp [textAt?, Option.bind_eq_some_iff]

/-! ## The walk meets what lookup finds -/

theorem Event.filterMap_text?_attributes (attributes : List Attribute) :
    (attributes.map Event.attr).filterMap Event.text? = [] := by
  induction attributes with
  | nil => rfl
  | cons attr rest ih => simpa only [List.map_cons, List.filterMap_cons, Event.text?] using ih

theorem Node.texts_element (tag : String) (attributes : List Attribute) (children : List Node)
    (location : Option Location) (extra : Members) (address : Address) :
    ((Node.element tag attributes children location extra).events address).filterMap Event.text? =
      (Node.listEvents address .child 0 children).filterMap Event.text? := by
  simp only [Node.events, List.filterMap_cons, Event.text?, List.filterMap_append,
    Event.filterMap_text?_attributes, List.filterMap_nil, List.nil_append, List.append_nil]

mutual
theorem Node.mem_texts (address : Address) (place : Address) (found : TextNode) : (node : Node) →
    ((place, found) ∈ (node.events address).filterMap Event.text? ↔
      ∃ rest, place = address ++ rest ∧ node.textAt? rest = some found)
  | .text node => by
    simp only [Node.events, List.filterMap_cons, Event.text?, List.filterMap_nil,
      List.mem_singleton, Prod.mk.injEq, Node.textAt?_text_iff]
    constructor
    · rintro ⟨rfl, rfl⟩
      exact ⟨[], by simp, rfl, rfl⟩
    · rintro ⟨rest, rfl, rfl, rfl⟩
      simp
  | .element tag attributes children location extra => by
    rw [Node.texts_element, Node.mem_listTexts address .child 0 place found children]
    simp only [Node.textAt?_element_iff, Nat.zero_add]
    constructor
    · rintro ⟨i, rest, child, present, rfl, text⟩
      exact ⟨_, rfl, i, rest, child, rfl, present, text⟩
    · rintro ⟨_, rfl, i, rest, child, rfl, present, text⟩
      exact ⟨i, rest, child, present, rfl, text⟩
  | .mustache node => by simp [Node.events, Event.text?, Node.textAt?_mustache]
  | .block path program inverse location extra => by
    simp only [Node.events, List.filterMap_append, List.mem_append, Node.textAt?_block_iff,
      Block.mem_texts address .program place found program,
      Block.mem_optionTexts address .inverse place found inverse]
    constructor
    · rintro (⟨i, rest, child, present, rfl, text⟩ | ⟨branch, i, rest, child, rfl, present, rfl, text⟩)
      · exact ⟨_, rfl, .inl ⟨i, rest, child, rfl, present, text⟩⟩
      · exact ⟨_, rfl, .inr ⟨branch, i, rest, child, rfl, rfl, present, text⟩⟩
    · rintro ⟨_, rfl, ⟨i, rest, child, rfl, present, text⟩ |
        ⟨branch, i, rest, child, rfl, rfl, present, text⟩⟩
      · exact .inl ⟨i, rest, child, present, rfl, text⟩
      · exact .inr ⟨branch, i, rest, child, rfl, present, rfl, text⟩
  | .other value => by simp [Node.events, Node.textAt?_other]
theorem Node.mem_listTexts (address : Address) (step : Nat → Step) (index : Nat)
    (place : Address) (found : TextNode) : (nodes : List Node) →
    ((place, found) ∈ (Node.listEvents address step index nodes).filterMap Event.text? ↔
      ∃ i rest node, nodes[i]? = some node ∧ place = address ++ step (index + i) :: rest ∧
        node.textAt? rest = some found)
  | [] => by simp [Node.listEvents]
  | node :: others => by
    simp only [Node.listEvents, List.filterMap_append, List.mem_append,
      Node.mem_texts (address ++ [step index]) place found node,
      Node.mem_listTexts address step (index + 1) place found others]
    constructor
    · rintro (⟨rest, rfl, text⟩ | ⟨i, rest, child, present, rfl, text⟩)
      · exact ⟨0, rest, node, rfl, by simp, text⟩
      · exact ⟨i + 1, rest, child, present, by rw [Nat.add_right_comm, Nat.add_assoc], text⟩
    · rintro ⟨i, rest, child, present, rfl, text⟩
      cases i with
      | zero =>
        obtain rfl := Option.some.inj present
        exact .inl ⟨rest, by simp, text⟩
      | succ i =>
        exact .inr ⟨i, rest, child, present, by rw [Nat.add_right_comm, Nat.add_assoc], text⟩
theorem Block.mem_texts (address : Address) (step : Nat → Step) (place : Address)
    (found : TextNode) : (block : Block) →
    ((place, found) ∈ (block.events address step).filterMap Event.text? ↔
      ∃ i rest node, block.body[i]? = some node ∧ place = address ++ step i :: rest ∧
        node.textAt? rest = some found)
  | .mk body _ => by
    have texts := Node.mem_listTexts address step 0 place found body
    simp only [Nat.zero_add] at texts
    exact texts
theorem Block.mem_optionTexts (address : Address) (step : Nat → Step) (place : Address)
    (found : TextNode) : (branch : Option Block) →
    ((place, found) ∈ (Block.optionEvents address step branch).filterMap Event.text? ↔
      ∃ block i rest node, branch = some block ∧ block.body[i]? = some node ∧
        place = address ++ step i :: rest ∧ node.textAt? rest = some found)
  | none => by simp [Block.optionEvents]
  | some block => by
    rw [Block.optionEvents, Block.mem_texts address step place found block]
    simp
end

/-- The texts of a walk are those that lookup finds, with their addresses. -/
theorem Template.mem_texts (template : Template) (address : Address) (found : TextNode) :
    (address, found) ∈ template.texts ↔ template.textAt? address = some found := by
  rw [Template.texts, Template.events, Node.mem_listTexts, Template.textAt?_iff]
  simp only [Nat.zero_add, List.nil_append]
  constructor
  · rintro ⟨i, rest, node, present, rfl, text⟩
    exact ⟨i, rest, node, rfl, present, text⟩
  · rintro ⟨i, rest, node, rfl, present, text⟩
    exact ⟨i, rest, node, present, rfl, text⟩

/-! ## No address is met twice -/

/-- The addresses at which events have texts. -/
def Event.addresses (events : List Event) : List Address :=
  (events.filterMap Event.text?).map Prod.fst

theorem Event.addresses_append (first second : List Event) :
    Event.addresses (first ++ second) = Event.addresses first ++ Event.addresses second := by
  simp only [Event.addresses, List.filterMap_append, List.map_append]

theorem Event.mem_addresses {events : List Event} {address : Address} :
    address ∈ Event.addresses events ↔
      ∃ found, (address, found) ∈ events.filterMap Event.text? := by
  simp [Event.addresses]

mutual
theorem Node.nodup_addresses (address : Address) : (node : Node) →
    (Event.addresses (node.events address)).Nodup
  | .text node => by simp [Node.events, Event.addresses, Event.text?]
  | .element tag attributes children location extra => by
    rw [Event.addresses, Node.texts_element]
    exact Node.nodup_listAddresses address .child Step.child.inj 0 children
  | .mustache node => by simp [Node.events, Event.addresses, Event.text?, List.filterMap_cons]
  | .block path program inverse location extra => by
    rw [Node.events, Event.addresses_append, List.nodup_append]
    refine ⟨Block.nodup_addresses address .program Step.program.inj program,
      Block.nodup_optionAddresses address .inverse Step.inverse.inj inverse, ?_⟩
    -- The branches part at their first step, so no index is compared.
    intro first inProgram second inInverse same
    obtain ⟨found, met⟩ := Event.mem_addresses.mp inProgram
    obtain ⟨other, alsoMet⟩ := Event.mem_addresses.mp inInverse
    obtain ⟨_, _, _, _, rfl, _⟩ := (Block.mem_texts ..).mp met
    obtain ⟨_, _, _, _, _, _, rfl, _⟩ := (Block.mem_optionTexts ..).mp alsoMet
    simp at same
  | .other value => by simp [Node.events, Event.addresses]
theorem Node.nodup_listAddresses (address : Address) (step : Nat → Step)
    (injective : ∀ {i j}, step i = step j → i = j) (index : Nat) : (nodes : List Node) →
    (Event.addresses (Node.listEvents address step index nodes)).Nodup
  | [] => by simp [Node.listEvents, Event.addresses]
  | node :: others => by
    rw [Node.listEvents, Event.addresses_append, List.nodup_append]
    refine ⟨Node.nodup_addresses (address ++ [step index]) node,
      Node.nodup_listAddresses address step injective (index + 1) others, ?_⟩
    intro first inNode second inOthers same
    obtain ⟨found, met⟩ := Event.mem_addresses.mp inNode
    obtain ⟨other, alsoMet⟩ := Event.mem_addresses.mp inOthers
    obtain ⟨rest, rfl, _⟩ := (Node.mem_texts ..).mp met
    obtain ⟨i, _, _, _, rfl, _⟩ := (Node.mem_listTexts ..).mp alsoMet
    simp only [List.append_assoc, List.singleton_append, List.append_cancel_left_eq,
      List.cons.injEq] at same
    have := injective same.1
    omega
theorem Block.nodup_addresses (address : Address) (step : Nat → Step)
    (injective : ∀ {i j}, step i = step j → i = j) : (block : Block) →
    (Event.addresses (block.events address step)).Nodup
  | .mk body _ => Node.nodup_listAddresses address step injective 0 body
theorem Block.nodup_optionAddresses (address : Address) (step : Nat → Step)
    (injective : ∀ {i j}, step i = step j → i = j) : (branch : Option Block) →
    (Event.addresses (Block.optionEvents address step branch)).Nodup
  | none => by simp [Block.optionEvents, Event.addresses]
  | some block => Block.nodup_addresses address step injective block
end

/-- The texts of a walk stand at different addresses. -/
theorem Template.nodup_addresses (template : Template) :
    (Event.addresses template.events).Nodup :=
  Node.nodup_listAddresses [] .child Step.child.inj 0 template.body

/-! ## Tags around an address -/

/-- The tags around an address below a node that stands inside elements with these tags. -/
def Node.tagsAt (tags : List String) : Address → Node → List String
  | .child i :: rest, .element tag _ children _ _ =>
    children[i]?.elim (tag :: tags) (Node.tagsAt (tag :: tags) rest)
  | .program i :: rest, .block _ program _ _ _ =>
    program.body[i]?.elim tags (Node.tagsAt tags rest)
  | .inverse i :: rest, .block _ _ (some inverse) _ _ =>
    inverse.body[i]?.elim tags (Node.tagsAt tags rest)
  | _, _ => tags

/-- The tags of the elements around an address, innermost first. -/
def Template.tagsAt (template : Template) : Address → List String
  | .child i :: rest => template.body[i]?.elim [] (Node.tagsAt [] rest)
  | _ => []

end TemplateLint
