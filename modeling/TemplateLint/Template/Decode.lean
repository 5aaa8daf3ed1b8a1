import TemplateLint.Json.Decode
import TemplateLint.Template.Basic

/-! # Templates from JSON

A value with a known tag must have the shape of its kind: it is never taken for an unknown node. A
value without a known tag is always an unknown node. Members are decoded in the order they have, so
the first bad member counts, and missing members are found last.
-/

namespace TemplateLint

open Json

/-! ## Locations -/

/-- The fields of a location met so far. -/
structure Location.Draft where
  line : Option Nat := none
  column : Option Nat := none

/-- A location whose fields are all known. -/
def Location.Draft.finish (draft : Location.Draft) : Except DecodeError Location := do
  let line ← required "line" draft.line
  let column ← required "column" draft.column
  return ⟨line, column⟩

/-- Add a member to a location; unknown ones are dropped. -/
def Location.Draft.add (draft : Location.Draft) (key : String) (value : Json) :
    Except DecodeError Location.Draft :=
  match key with
  | "line" => return { draft with line := some (← value.decodeIndex) }
  | "column" => return { draft with column := some (← value.decodeIndex) }
  | _ => return draft

/-- A location, given as an object or as the array of its two fields. `surplus` is what a longer
array should have been. -/
def Location.decode (surplus : Expected) : Json → Except DecodeError Location
  | .array [] => .error (.wrongLength 0 (.elements "SourceLocation" 2))
  | .array [line] => do
    let _ ← line.decodeIndex
    .error (.wrongLength 1 (.elements "SourceLocation" 2))
  | .array (line :: column :: rest) => do
    let line ← line.decodeIndex
    let column ← column.decodeIndex
    if rest.isEmpty then return ⟨line, column⟩
    else .error (.wrongLength (rest.length + 2) surplus)
  | .object members => do
    (← gather Location.Draft.add {} members).finish
  | value => value.mismatch (.record "SourceLocation")

/-! ## Text -/

/-- The fields met so far of a node that holds one text. -/
structure TextDraft where
  text : Option String := none
  location : Option Location := none
  extra : Members := []

/-- Add a member to a node that holds its text under a name. -/
def TextDraft.add (name : String) (surplus : Expected) (draft : TextDraft) (key : String)
    (value : Json) : Except DecodeError TextDraft :=
  if key = name then return { draft with text := some (← value.decodeText) }
  else if key = "loc" then
    return { draft with location := ← value.decodeOptional (Location.decode surplus) }
  else return { draft with extra := draft.extra ++ [(key, value)] }

/-- The members of a node that holds its text under a name. -/
def TextDraft.decode (name : String) (surplus : Expected) (members : Members) :
    Except DecodeError TextDraft :=
  gather (TextDraft.add name surplus) {} members

/-- A text node without its tag. -/
def TextNode.decode (surplus : Expected) (members : Members) : Except DecodeError TextNode := do
  let draft ← TextDraft.decode "chars" surplus members
  return ⟨← required "chars" draft.text, draft.location, draft.extra⟩

/-! ## Expressions and mustaches -/

/-- A string literal without its tag. -/
def StringLiteral.decode (members : Members) : Except DecodeError StringLiteral := do
  let draft ← TextDraft.decode "value" .fewerInArray members
  return ⟨← required "value" draft.text, draft.location, draft.extra⟩

/-- A path expression without its tag. -/
def PathExpression.decode (members : Members) : Except DecodeError PathExpression := do
  let draft ← TextDraft.decode "original" .fewerInArray members
  return ⟨← required "original" draft.text, draft.location, draft.extra⟩

/-- An expression. -/
def Expression.decode (value : Json) : Except DecodeError Expression :=
  match value, value.tag? with
  | .object members, some "StringLiteral" =>
    within "StringLiteral" do
      return .literal (← StringLiteral.decode (Members.erase "type" members))
  | .object members, some "PathExpression" =>
    within "PathExpression" do return .path (← PathExpression.decode (Members.erase "type" members))
  | _, _ => .ok (.other value)

/-- The fields of a mustache met so far. -/
structure Mustache.Draft where
  path : Option Expression := none
  location : Option Location := none
  extra : Members := []

/-- Add a member to a mustache. -/
def Mustache.Draft.add (surplus : Expected) (draft : Mustache.Draft) (key : String) (value : Json) :
    Except DecodeError Mustache.Draft :=
  match key with
  | "path" => return { draft with path := some (← Expression.decode value) }
  | "loc" => return { draft with location := ← value.decodeOptional (Location.decode surplus) }
  | _ => return { draft with extra := draft.extra ++ [(key, value)] }

/-- A mustache without its tag. -/
def Mustache.decode (surplus : Expected) (members : Members) : Except DecodeError Mustache := do
  let draft ← gather (Mustache.Draft.add surplus) {} members
  return ⟨← required "path" draft.path, draft.location, draft.extra⟩

/-! ## Attributes -/

/-- The tags that a part of a mixed attribute value may have. -/
def Part.tags : List String := ["TextNode", "MustacheStatement"]

/-- The tag of a part. -/
def Part.decodeTag : Json → Except DecodeError String
  | .string tag => if tag ∈ Part.tags then .ok tag else .error (.unknownVariant tag Part.tags)
  | value => value.mismatch .variant

/-- A part of a mixed attribute value. An array is read as far as its tag, which no kind of part
can follow in an array. -/
def Part.decode : Json → Except DecodeError Part
  | .object members => do
    let tag ← Part.decodeTag (← required "type" (Members.get? members "type"))
    if tag = "TextNode" then
      return .text (← TextNode.decode (.inSequence 2) (Members.erase "type" members))
    else return .mustache (← Mustache.decode (.inSequence 2) (Members.erase "type" members))
  | .array [] => .error (.missingField "type")
  | .array (tag :: _) => do
    let tag ← Part.decodeTag tag
    .error (.wrongType .sequence (.record tag))
  | value => value.mismatch (.tagged "ConcatPart")

/-- The fields of a mixed attribute value met so far. -/
structure Concat.Draft where
  parts : Option (List Part) := none
  extra : Members := []

/-- Add a member to a mixed attribute value. -/
def Concat.Draft.add (draft : Concat.Draft) (key : String) (value : Json) :
    Except DecodeError Concat.Draft :=
  match key with
  | "parts" => return { draft with parts := some (← value.decodeList Part.decode) }
  | _ => return { draft with extra := draft.extra ++ [(key, value)] }

/-- A mixed attribute value without its tag. -/
def Concat.decode (members : Members) : Except DecodeError Concat := do
  let draft ← gather Concat.Draft.add {} members
  return ⟨← required "parts" draft.parts, draft.extra⟩

/-- An attribute value. -/
def AttributeValue.decode (value : Json) : Except DecodeError AttributeValue :=
  match value, value.tag? with
  | .object members, some "TextNode" =>
    within "TextNode" do
      return .text (← TextNode.decode .fewerInArray (Members.erase "type" members))
  | .object members, some "MustacheStatement" =>
    within "MustacheStatement" do
      return .mustache (← Mustache.decode .fewerInArray (Members.erase "type" members))
  | .object members, some "ConcatStatement" =>
    within "ConcatStatement" do return .concat (← Concat.decode (Members.erase "type" members))
  | _, _ => .ok (.other value)

/-- The fields of an attribute met so far. -/
structure Attribute.Draft where
  name : Option String := none
  value : Option AttributeValue := none
  /-- Whether a location was met, and which. -/
  location : Option (Option Location) := none
  extra : Members := []

/-- An attribute whose required fields are all known. -/
def Attribute.Draft.finish (draft : Attribute.Draft) : Except DecodeError Attribute := do
  let name ← required "name" draft.name
  let value ← required "value" draft.value
  return ⟨name, value, draft.location.join, draft.extra⟩

/-- Add a member to an attribute. -/
def Attribute.Draft.add (draft : Attribute.Draft) (key : String) (value : Json) :
    Except DecodeError Attribute.Draft :=
  match key with
  | "name" => return { draft with name := some (← value.decodeText) }
  | "value" => return { draft with value := some (← AttributeValue.decode value) }
  | "loc" =>
    return { draft with location := some (← value.decodeOptional (Location.decode .fewerInArray)) }
  | _ => return { draft with extra := draft.extra ++ [(key, value)] }

/-- An attribute. -/
def Attribute.decode : Json → Except DecodeError Attribute
  | .object members => do
    (← gather Attribute.Draft.add {} members).finish
  | value => value.mismatch (.record "AttrNode")

/-! ## Nodes -/

/-- The fields of an element met so far. -/
structure ElementDraft where
  tag : Option String := none
  attributes : List Attribute := []
  children : List Node := []
  location : Option Location := none
  extra : Members := []

/-- An element whose required fields are all known. -/
def ElementDraft.finish (draft : ElementDraft) : Except DecodeError Node := do
  let tag ← required "tag" draft.tag
  return .element tag draft.attributes draft.children draft.location draft.extra

/-- The fields of a block met so far. -/
structure BlockDraft where
  path : Option Expression := none
  program : Option Block := none
  inverse : Option Block := none
  location : Option Location := none
  extra : Members := []

/-- A block whose required fields are all known. -/
def BlockDraft.finish (draft : BlockDraft) : Except DecodeError Node := do
  let path ← required "path" draft.path
  let program ← required "program" draft.program
  return .block path program draft.inverse draft.location draft.extra

/-- The fields of a list of nodes with unread members met so far. -/
structure BodyDraft where
  body : Option (List Node) := none
  extra : Members := []

/-- A branch whose nodes are known. -/
def BodyDraft.finishBlock (draft : BodyDraft) : Except DecodeError Block := do
  return .mk (← required "body" draft.body) draft.extra

mutual
/-- A node. -/
def Node.decode : Json → Except DecodeError Node
  | .object members =>
    match Json.tag? (.object members) with
    | some "TextNode" =>
      within "TextNode" do
        return .text (← TextNode.decode .fewerInArray (Members.erase "type" members))
    | some "ElementNode" =>
      within "ElementNode" do (← Node.decodeElement members {}).finish
    | some "MustacheStatement" =>
      within "MustacheStatement" do
        return .mustache (← Mustache.decode .fewerInArray (Members.erase "type" members))
    | some "BlockStatement" =>
      within "BlockStatement" do (← Node.decodeBlock members {}).finish
    | _ => .ok (.other (.object members))
  | value => .ok (.other value)
/-- The members of an element. -/
def Node.decodeElement : List (String × Json) → ElementDraft → Except DecodeError ElementDraft
  | [], draft => .ok draft
  | (key, value) :: rest, draft => do
    match key with
    | "type" => Node.decodeElement rest draft
    | "tag" =>
      let tag ← value.decodeText
      Node.decodeElement rest { draft with tag := some tag }
    | "attributes" =>
      let attributes ← value.decodeList Attribute.decode
      Node.decodeElement rest { draft with attributes := attributes }
    | "children" =>
      let children ← Node.decodeNodes value
      Node.decodeElement rest { draft with children := children }
    | "loc" =>
      let location ← value.decodeOptional (Location.decode .fewerInArray)
      Node.decodeElement rest { draft with location := location }
    | _ => Node.decodeElement rest { draft with extra := draft.extra ++ [(key, value)] }
/-- The members of a block statement. -/
def Node.decodeBlock : List (String × Json) → BlockDraft → Except DecodeError BlockDraft
  | [], draft => .ok draft
  | (key, value) :: rest, draft => do
    match key with
    | "type" => Node.decodeBlock rest draft
    | "path" =>
      let path ← Expression.decode value
      Node.decodeBlock rest { draft with path := some path }
    | "program" =>
      let program ← Block.decode value
      Node.decodeBlock rest { draft with program := some program }
    | "inverse" =>
      match value with
      | .null => Node.decodeBlock rest { draft with inverse := none }
      | _ =>
        let inverse ← Block.decode value
        Node.decodeBlock rest { draft with inverse := some inverse }
    | "loc" =>
      let location ← value.decodeOptional (Location.decode .fewerInArray)
      Node.decodeBlock rest { draft with location := location }
    | _ => Node.decodeBlock rest { draft with extra := draft.extra ++ [(key, value)] }
/-- A branch of a block statement. -/
def Block.decode : Json → Except DecodeError Block
  | .object members => do (← Node.decodeBody members {}).finishBlock
  | value => value.mismatch (.record "Block")
/-- The members of a branch. -/
def Node.decodeBody : List (String × Json) → BodyDraft → Except DecodeError BodyDraft
  | [], draft => .ok draft
  | (key, value) :: rest, draft => do
    match key with
    | "body" =>
      let body ← Node.decodeNodes value
      Node.decodeBody rest { draft with body := some body }
    | _ => Node.decodeBody rest { draft with extra := draft.extra ++ [(key, value)] }
/-- A list of nodes. -/
def Node.decodeNodes : Json → Except DecodeError (List Node)
  | .array items => Node.decodeItems items
  | value => value.mismatch .sequence
/-- The items of a list of nodes. -/
def Node.decodeItems : List Json → Except DecodeError (List Node)
  | [] => .ok []
  | item :: rest => do
    let node ← Node.decode item
    return node :: (← Node.decodeItems rest)
end

/-- A template. -/
def Template.decode : Json → Except DecodeError Template
  | .object members => do
    let draft ← Node.decodeBody members {}
    return ⟨← required "body" draft.body, draft.extra⟩
  | value => value.mismatch (.record "Template")

end TemplateLint
