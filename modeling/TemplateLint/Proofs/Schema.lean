import Mathlib
import TemplateLint.Template.Decode

/-! # The schema of templates

A template is made of records of ten kinds. The table `Kind.fields` says which members a record of a
kind has, and `Shape.layout` says what may stand at a position: a text, a location, a list, a record of
a fixed kind, or a record that tells its kind by its tag. Everything else about reading and writing
templates is stated with these two tables.
-/

namespace TemplateLint.Schema

/-- The kinds of records. -/
inductive Kind where
  | template
  | branch
  | attr
  | text
  | element
  | mustache
  | block
  | concat
  | literal
  | path
deriving DecidableEq, Repr

/-- The positions of a template, by what stands there. -/
inductive Shape where
  | text
  | location
  | nodes
  | attributes
  | parts
  | template
  | branch
  | attr
  | node
  | attributeValue
  | part
  | expression
deriving DecidableEq, Repr

/-- What a position calls for. -/
inductive Layout where
  | text
  | location
  | list (item : Shape)
  | record (kind : Kind)
  /-- A record that tells its kind by its tag. At an open position any value without a known tag may
  stand as well. -/
  | tagged (kinds : List Kind) (isOpen : Bool)
deriving DecidableEq, Repr

/-- What each position calls for. -/
def Shape.layout : Shape → Layout
  | .text => .text
  | .location => .location
  | .nodes => .list .node
  | .attributes => .list .attr
  | .parts => .list .part
  | .template => .record .template
  | .branch => .record .branch
  | .attr => .record .attr
  | .node => .tagged [.text, .element, .mustache, .block] true
  | .attributeValue => .tagged [.text, .mustache, .concat] true
  | .part => .tagged [.text, .mustache] false
  | .expression => .tagged [.literal, .path] true

/-- Whether a member must be there. -/
inductive Need where
  | required
  /-- It may be left out or null. -/
  | optional
  /-- It may be left out, and is an empty list then. -/
  | listed
deriving DecidableEq, Repr

/-- A member that a record has. -/
structure Field where
  name : String
  need : Need
  shape : Shape
deriving DecidableEq, Repr

namespace Kind

/-- The member for the location of a record. -/
def locationField : Field := ⟨"loc", .optional, .location⟩

/-- The members that each kind of record has. -/
def fields : Kind → List Field
  | .template => [⟨"body", .required, .nodes⟩]
  | .branch => [⟨"body", .required, .nodes⟩]
  | .attr =>
    [⟨"name", .required, .text⟩, ⟨"value", .required, .attributeValue⟩, locationField]
  | .text => [⟨"chars", .required, .text⟩, locationField]
  | .element =>
    [⟨"tag", .required, .text⟩, ⟨"attributes", .listed, .attributes⟩,
      ⟨"children", .listed, .nodes⟩, locationField]
  | .mustache => [⟨"path", .required, .expression⟩, locationField]
  | .block =>
    [⟨"path", .required, .expression⟩, ⟨"program", .required, .branch⟩,
      ⟨"inverse", .optional, .branch⟩, locationField]
  | .concat => [⟨"parts", .required, .parts⟩]
  | .literal => [⟨"value", .required, .text⟩, locationField]
  | .path => [⟨"original", .required, .text⟩, locationField]

/-- The tag of a kind of record, if it has one. -/
def tag? : Kind → Option String
  | .template | .branch | .attr => none
  | .text => some "TextNode"
  | .element => some "ElementNode"
  | .mustache => some "MustacheStatement"
  | .block => some "BlockStatement"
  | .concat => some "ConcatStatement"
  | .literal => some "StringLiteral"
  | .path => some "PathExpression"

/-- The member that tells a kind of record by its tag. -/
def tagMember (kind : Kind) : Members := kind.tag?.toList.map fun tag => ("type", .string tag)

/-- The names of the members that a kind of record has. -/
def names (kind : Kind) : List String := kind.fields.map Field.name

/-- The keys that a kind of record has a use for: its tag and the names of its members. -/
def keys (kind : Kind) : List String := kind.tagMember.map Prod.fst ++ kind.names

/-- The names of the members that are lists and may be left out. -/
def lists (kind : Kind) : List String :=
  (kind.fields.filter fun field => field.need = .listed).map Field.name

/-- The member of a kind of record with a name. -/
def field? (kind : Kind) (name : String) : Option Field :=
  kind.fields.find? fun field => field.name == name

theorem nodup_names (kind : Kind) : kind.names.Nodup := by
  cases kind <;> decide

theorem field?_eq_some {kind : Kind} {name : String} {field : Field}
    (found : kind.field? name = some field) : field ∈ kind.fields ∧ field.name = name :=
  ⟨List.mem_of_find?_eq_some found, by simpa using List.find?_some found⟩

theorem field?_eq_none {kind : Kind} {name : String} (missing : kind.field? name = none) :
    name ∉ kind.names := by
  intro declared
  obtain ⟨field, among, rfl⟩ := List.mem_map.mp declared
  simpa using List.find?_eq_none.mp missing field among

theorem field?_of_mem {kind : Kind} {field : Field} (declared : field ∈ kind.fields) :
    kind.field? field.name = some field := by
  have each : ∀ field ∈ kind.fields, kind.field? field.name = some field := by
    cases kind <;> decide
  exact each field declared

theorem mem_lists_iff {kind : Kind} {name : String} :
    name ∈ kind.lists ↔ ∃ field, kind.field? name = some field ∧ field.need = .listed := by
  constructor
  · intro among
    obtain ⟨field, found, rfl⟩ := List.mem_map.mp among
    obtain ⟨declared, listed⟩ := List.mem_filter.mp found
    exact ⟨field, field?_of_mem declared, by simpa using listed⟩
  · rintro ⟨field, found, listed⟩
    obtain ⟨declared, rfl⟩ := field?_eq_some found
    exact List.mem_map.mpr ⟨field, List.mem_filter.mpr ⟨declared, by simpa using listed⟩, rfl⟩

/-- What may be left out as an empty list is a list. -/
theorem layout_of_listed {kind : Kind} {field : Field} (declared : field ∈ kind.fields)
    (listed : field.need = .listed) : ∃ item, field.shape.layout = .list item := by
  have shapes : ∀ field ∈ kind.fields, field.need = .listed →
      field.shape = .attributes ∨ field.shape = .nodes := by
    cases kind <;> decide
  rcases shapes field declared listed with shape | shape
  · exact ⟨.attr, by rw [shape]; rfl⟩
  · exact ⟨.node, by rw [shape]; rfl⟩

theorem field?_type (kind : Kind) : kind.field? "type" = none := by
  cases kind <;> decide

theorem nodup_lists (kind : Kind) : kind.lists.Nodup := by
  cases kind <;> decide

theorem nodup_keys (kind : Kind) : kind.keys.Nodup := by
  cases kind <;> decide

end Kind

/-- The kind of record that a value is at a position, if it is one. -/
def Layout.kind? : Layout → Json → Option Kind
  | .record kind, _ => some kind
  | .tagged kinds _, value => value.tag?.bind fun tag => kinds.find? fun kind => kind.tag? == some tag
  | _, _ => none

/-- Whether any value without a known tag may stand at a position. -/
def Layout.isOpen : Layout → Bool
  | .tagged _ isOpen => isOpen
  | _ => false

/-- An index: an unsigned integer of 64 bits. -/
def IsIndex (value : Json) : Prop := ∃ n < 2 ^ 64, value = .ofNat n

/-- A line and a column, given as an array of the two or as an object with both. -/
inductive IsLocation : Json → Prop where
  | pair {line column : Json} (lineIndex : IsIndex line) (columnIndex : IsIndex column) :
      IsLocation (.array [line, column])
  | record {members : Members} {line column : Json} (lineGiven : members.get? "line" = some line)
      (lineIndex : IsIndex line) (columnGiven : members.get? "column" = some column)
      (columnIndex : IsIndex column) : IsLocation (.object members)

/-- A value that may stand at a position. -/
inductive WellFormed : Shape → Json → Prop where
  | text {shape : Shape} (layout : shape.layout = .text) (text : String) :
      WellFormed shape (.string text)
  | location {shape : Shape} {value : Json} (layout : shape.layout = .location)
      (location : IsLocation value) : WellFormed shape value
  | list {shape item : Shape} {values : List Json} (layout : shape.layout = .list item)
      (each : ∀ value ∈ values, WellFormed item value) : WellFormed shape (.array values)
  | record {shape : Shape} {kind : Kind} {members : Members}
      (known : shape.layout.kind? (.object members) = some kind)
      (present : ∀ field ∈ kind.fields, field.need = .required →
        ∃ value, members.get? field.name = some value)
      (each : ∀ field ∈ kind.fields, ∀ value, members.get? field.name = some value →
        ¬ (field.need = .optional ∧ value = .null) → WellFormed field.shape value) :
      WellFormed shape (.object members)
  | unknown {shape : Shape} {value : Json} (isOpen : shape.layout.isOpen = true)
      (unknown : shape.layout.kind? value = none) : WellFormed shape value

end TemplateLint.Schema
