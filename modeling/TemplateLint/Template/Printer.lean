import TemplateLint.Json.Printer
import TemplateLint.Template.Basic

/-! # Templates as JSON

A tagged value starts with its `type`; then come the declared members in a fixed order and last the
unread ones in the order they had. An absent location or inverse branch is left out.
-/

namespace TemplateLint

/-- A list of members with an optional one in front. -/
def Members.withOptional (key : String) (value : Option Json) (rest : Members) : Members :=
  match value with
  | some value => (key, value) :: rest
  | none => rest

/-- A location as JSON. -/
def Location.toJson (location : Location) : Json :=
  .object [("line", .ofNat location.line), ("column", .ofNat location.column)]

/-- The members behind the declared ones: the location, if there is one, and the unread ones. -/
def trailingMembers (location : Option Location) (extra : Members) : Members :=
  Members.withOptional "loc" (location.map Location.toJson) extra

/-- A text node as JSON. -/
def TextNode.toJson (node : TextNode) : Json :=
  .object (("type", .string "TextNode") :: ("chars", .string node.chars) ::
    trailingMembers node.location node.extra)

/-- An expression as JSON. -/
def Expression.toJson : Expression → Json
  | .literal node =>
    .object (("type", .string "StringLiteral") :: ("value", .string node.value) ::
      trailingMembers node.location node.extra)
  | .path node =>
    .object (("type", .string "PathExpression") :: ("original", .string node.name) ::
      trailingMembers node.location node.extra)
  | .other value => value

/-- A mustache as JSON. -/
def Mustache.toJson (mustache : Mustache) : Json :=
  .object (("type", .string "MustacheStatement") :: ("path", mustache.path.toJson) ::
    trailingMembers mustache.location mustache.extra)

/-- A part of a mixed attribute value as JSON. -/
def Part.toJson : Part → Json
  | .text node => node.toJson
  | .mustache node => node.toJson

/-- An attribute value as JSON. -/
def AttributeValue.toJson : AttributeValue → Json
  | .text node => node.toJson
  | .mustache node => node.toJson
  | .concat node =>
    .object (("type", .string "ConcatStatement") ::
      ("parts", .array (node.parts.map Part.toJson)) ::
      node.extra)
  | .other value => value

/-- An attribute as JSON. It has no tag of its own. -/
def Attribute.toJson (attr : Attribute) : Json :=
  .object (("name", .string attr.name) :: ("value", attr.value.toJson) ::
    trailingMembers attr.location attr.extra)

mutual
/-- A node as JSON. -/
def Node.toJson : Node → Json
  | .text node => node.toJson
  | .element tag attributes children location extra =>
    .object (("type", .string "ElementNode") :: ("tag", .string tag) ::
      ("attributes", .array (attributes.map Attribute.toJson)) ::
      ("children", .array (Node.listToJson children)) :: trailingMembers location extra)
  | .mustache node => node.toJson
  | .block path program inverse location extra =>
    .object (("type", .string "BlockStatement") :: ("path", path.toJson) ::
      ("program", Block.toJson program) ::
      Members.withOptional "inverse" (Block.optionToJson inverse) (trailingMembers location extra))
  | .other value => value
/-- Nodes as JSON. -/
def Node.listToJson : List Node → List Json
  | [] => []
  | node :: rest => node.toJson :: Node.listToJson rest
/-- A branch of a block as JSON. -/
def Block.toJson : Block → Json
  | .mk body extra => .object (("body", .array (Node.listToJson body)) :: extra)
/-- A branch that may be absent as JSON. -/
def Block.optionToJson : Option Block → Option Json
  | none => none
  | some block => some block.toJson
end

/-- A template as JSON. -/
def Template.toJson (template : Template) : Json :=
  .object (("body", .array (Node.listToJson template.body)) :: template.extra)

/-- A document as JSON. -/
def Document.toJson (document : Document) : Json :=
  .object [("filePath", .string document.filePath), ("template", document.template.toJson)]

/-- The text of a document's file: indented lines, with a newline at the end. -/
def Document.toFileText (document : Document) : String :=
  document.toJson.pretty ++ "\n"

end TemplateLint
