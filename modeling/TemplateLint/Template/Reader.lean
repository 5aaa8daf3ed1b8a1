import TemplateLint.Json.Typed
import TemplateLint.Template.Decode

/-! # Templates from text

Documents, templates, attributes and locations are read straight from the text; nodes, attribute
values and expressions are read untyped and decoded then, so their errors get the place of the array
or object around them.
-/

namespace TemplateLint

open Json Reader

/-! ## Locations and attributes -/

/-- Read the line of a location. -/
def Location.Draft.readLine (draft : Location.Draft) : Reader Location.Draft := do
  return { draft with line := some (← index) }

/-- Read the column of a location. -/
def Location.Draft.readColumn (draft : Location.Draft) : Reader Location.Draft := do
  return { draft with column := some (← index) }

/-- How a location is read. -/
def Location.record : Record Location.Draft Location where
  name := "SourceLocation"
  start := {}
  member _ key draft :=
    match key with
    | "line" => once key draft.line draft.readLine
    | "column" => once key draft.column draft.readColumn
    | _ => ignored draft
  places := some fun _ => [⟨Location.Draft.readLine, false⟩, ⟨Location.Draft.readColumn, false⟩]
  finish := Location.Draft.finish

/-- How an attribute is read. -/
def Attribute.record : Record Attribute.Draft Attribute where
  name := "AttrNode"
  start := {}
  member depth key draft :=
    match key with
    | "name" => once key draft.name do return { draft with name := some (← text) }
    | "value" =>
      once key draft.value do
        return { draft with value := some (← decoded AttributeValue.decode depth) }
    | "loc" =>
      once key draft.location do
        return { draft with location := some (← optional (Location.record.read depth)) }
    | _ =>
      .ok do return { draft with extra := Members.assign key (← Reader.value depth) draft.extra }
  places := none
  finish := Attribute.Draft.finish

/-! ## Templates and documents -/

/-- A template whose nodes are known. -/
def BodyDraft.finishTemplate (draft : BodyDraft) : Except DecodeError Template := do
  return ⟨← required "body" draft.body, draft.extra⟩

/-- How a template is read. -/
def Template.record : Record BodyDraft Template where
  name := "Template"
  start := {}
  member depth key draft :=
    match key with
    | "body" =>
      once key draft.body do
        return { draft with body := some (← listOf (decoded Node.decode) depth) }
    | _ =>
      .ok do return { draft with extra := Members.assign key (← Reader.value depth) draft.extra }
  places := none
  finish := BodyDraft.finishTemplate

/-- The fields of a document met so far. -/
structure Document.Draft where
  filePath : Option String := none
  template : Option Template := none

/-- A document whose fields are all known. -/
def Document.Draft.finish (draft : Document.Draft) : Except DecodeError Document := do
  let filePath ← required "filePath" draft.filePath
  let template ← required "template" draft.template
  return ⟨filePath, template⟩

/-- Read the path of a document. -/
def Document.Draft.readPath (draft : Document.Draft) : Reader Document.Draft := do
  return { draft with filePath := some (← text) }

/-- Read the template of a document. -/
def Document.Draft.readTemplate (depth : Nat) (draft : Document.Draft) : Reader Document.Draft := do
  return { draft with template := some (← Template.record.read depth) }

/-- How a document is read. -/
def Document.record : Record Document.Draft Document where
  name := "TemplateDocument"
  start := {}
  member depth key draft :=
    match key with
    | "filePath" => once key draft.filePath draft.readPath
    | "template" => once key draft.template (draft.readTemplate depth)
    | _ => ignored draft
  places := some fun depth =>
    [⟨Document.Draft.readPath, false⟩, ⟨Document.Draft.readTemplate depth, false⟩]
  finish := Document.Draft.finish

/-! ## Whole texts -/

/-- Read a whole text as a document. -/
def Document.parse (text : String) : Except Fault Document :=
  readText (Document.record.read depthLimit) text

/-- Read a whole text as a template. -/
def Template.parse (text : String) : Except Fault Template :=
  readText (Template.record.read depthLimit) text

/-- Read a whole text as an attribute. -/
def Attribute.parse (text : String) : Except Fault Attribute :=
  readText (Attribute.record.read depthLimit) text

/-- Read a whole text as a node. -/
def Node.parse (text : String) : Except Fault Node :=
  readText (decoded Node.decode depthLimit) text

/-- Read a whole text as an expression. -/
def Expression.parse (text : String) : Except Fault Expression :=
  readText (decoded Expression.decode depthLimit) text

end TemplateLint
