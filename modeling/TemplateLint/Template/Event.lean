import TemplateLint.Template.Address

/-! # Walking a template

The walk is depth first. An element gives an event for entering it, one for each attribute, those of
its children and one for leaving it. A block gives the events of its branches. Attribute values are
not walked, so text events are those of the body.
-/

namespace TemplateLint

/-- What a walk meets. -/
inductive Event where
  | enter (tag : String)
  | exit (tag : String)
  | attr (attr : Attribute)
  | text (node : TextNode) (address : Address)
  | mustache (node : Mustache)

mutual
/-- The events of a node at an address. -/
def Node.events (address : Address) : Node → List Event
  | .text node => [.text node address]
  | .element tag attributes children _ _ =>
    .enter tag :: (attributes.map Event.attr ++ Node.listEvents address .child 0 children ++
      [.exit tag])
  | .mustache node => [.mustache node]
  | .block _ program inverse _ _ =>
    Block.events address .program program ++ Block.optionEvents address .inverse inverse
  | .other _ => []
/-- The events of nodes in a list, from an index on. -/
def Node.listEvents (address : Address) (step : Nat → Step) (index : Nat) :
    List Node → List Event
  | [] => []
  | node :: rest =>
    node.events (address ++ [step index]) ++ Node.listEvents address step (index + 1) rest
/-- The events of a branch of a block. -/
def Block.events (address : Address) (step : Nat → Step) : Block → List Event
  | .mk body _ => Node.listEvents address step 0 body
/-- The events of a branch that may be absent. -/
def Block.optionEvents (address : Address) (step : Nat → Step) : Option Block → List Event
  | none => []
  | some block => block.events address step
end

/-- The events of a template. -/
def Template.events (template : Template) : List Event :=
  Node.listEvents [] .child 0 template.body

end TemplateLint
