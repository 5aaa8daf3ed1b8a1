import TemplateLint.Template.Basic

/-! # Addresses of nodes

An address leads from a template down to a node of its body: an index at every step, and at every
step below the first the list that the index counts in. Only text is looked up and changed.
-/

namespace TemplateLint

/-- One step down to a node. -/
inductive Step where
  /-- Into the body of the template or the children of an element. -/
  | child (index : Nat)
  /-- Into the main branch of a block. -/
  | program (index : Nat)
  /-- Into the other branch of a block. -/
  | inverse (index : Nat)
deriving DecidableEq, Repr

/-- The steps from a template to a node. -/
abbrev Address := List Step

/-- The text at an address below a node. -/
def Node.textAt? : Address → Node → Option TextNode
  | [], .text node => some node
  | .child i :: rest, .element _ _ children _ _ => children[i]?.bind (Node.textAt? rest)
  | .program i :: rest, .block _ program _ _ _ => program.body[i]?.bind (Node.textAt? rest)
  | .inverse i :: rest, .block _ _ (some inverse) _ _ => inverse.body[i]?.bind (Node.textAt? rest)
  | _, _ => none

/-- Change the text at an address below a node; without a text there, nothing changes. -/
def Node.setTextAt (chars : String) : Address → Node → Node
  | [], .text node => .text { node with chars := chars }
  | .child i :: rest, .element tag attributes children location extra =>
    .element tag attributes (children.modify i (Node.setTextAt chars rest)) location extra
  | .program i :: rest, .block path (.mk body unread) inverse location extra =>
    .block path (.mk (body.modify i (Node.setTextAt chars rest)) unread) inverse location extra
  | .inverse i :: rest, .block path program (some (.mk body unread)) location extra =>
    .block path program (some (.mk (body.modify i (Node.setTextAt chars rest)) unread)) location
      extra
  | _, node => node

/-- The text at an address of a template. -/
def Template.textAt? (template : Template) : Address → Option TextNode
  | .child i :: rest => template.body[i]?.bind (Node.textAt? rest)
  | _ => none

/-- Change the text at an address of a template; without a text there, nothing changes. -/
def Template.setTextAt (template : Template) (address : Address) (chars : String) : Template :=
  match address with
  | .child i :: rest =>
    { template with body := template.body.modify i (Node.setTextAt chars rest) }
  | _ => template

end TemplateLint
