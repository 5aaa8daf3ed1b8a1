import Mathlib
import TemplateLint.Proofs.Schema
import TemplateLint.Proofs.Values
import TemplateLint.Template.Printer

/-! # The pieces of a template

What stands at a position of a template is a piece: a text, a location, a list, a record, or a value
that is kept as it was given. A record is viewed through its members, so that one statement about a
record of any kind replaces one for each kind. The view is one level deep: the pieces that a record
is made of hold nodes, expressions and values as the library has them.
-/

namespace TemplateLint.Schema

open Json

/-- A record of a template. -/
inductive Entity where
  | template (template : Template)
  | branch (block : Block)
  | attr (attr : Attribute)
  | text (text : TextNode)
  | element (tag : String) (attributes : List Attribute) (children : List Node)
      (location : Option Location) (extra : Members)
  | mustache (mustache : Mustache)
  | block (path : Expression) (program : Block) (inverse : Option Block)
      (location : Option Location) (extra : Members)
  | concat (concat : Concat)
  | literal (literal : StringLiteral)
  | path (path : PathExpression)

/-- What stands at a position of a template. -/
inductive Piece where
  | text (text : String)
  | location (location : Location)
  | list (items : List Piece)
  | entity (entity : Entity)
  | other (value : Json)

/-! ## Views -/

namespace Piece

/-- A node as a piece. -/
def ofNode : Node → Piece
  | .text node => .entity (.text node)
  | .element tag attributes children place extra =>
    .entity (.element tag attributes children place extra)
  | .mustache node => .entity (.mustache node)
  | .block path program inverse place extra =>
    .entity (.block path program inverse place extra)
  | .other value => .other value

/-- The value of an attribute as a piece. -/
def ofValue : AttributeValue → Piece
  | .text node => .entity (.text node)
  | .mustache node => .entity (.mustache node)
  | .concat node => .entity (.concat node)
  | .other value => .other value

/-- A part of a mixed attribute value as a piece. -/
def ofPart : Part → Piece
  | .text node => .entity (.text node)
  | .mustache node => .entity (.mustache node)

/-- An expression as a piece. -/
def ofExpression : Expression → Piece
  | .literal node => .entity (.literal node)
  | .path node => .entity (.path node)
  | .other value => .other value

/-- An attribute as a piece. -/
def ofAttribute (attr : Attribute) : Piece := .entity (.attr attr)

/-- A branch of a block as a piece. -/
def ofBranch (block : Block) : Piece := .entity (.branch block)

/-- A template as a piece. -/
def ofTemplate (template : Template) : Piece := .entity (.template template)

/-- A list of things that are each a piece. -/
def ofList {α : Type} (view : α → Piece) (items : List α) : Piece := .list (items.map view)

theorem ofNode_injective : Function.Injective ofNode := by
  rintro (_ | _ | _ | _ | _) (_ | _ | _ | _ | _) same <;> cases same <;> rfl

theorem ofValue_injective : Function.Injective ofValue := by
  rintro (_ | _ | _ | _) (_ | _ | _ | _) same <;> cases same <;> rfl

theorem ofPart_injective : Function.Injective ofPart := by
  rintro (_ | _) (_ | _) same <;> cases same <;> rfl

theorem ofExpression_injective : Function.Injective ofExpression := by
  rintro (_ | _ | _) (_ | _ | _) same <;> cases same <;> rfl

theorem ofAttribute_injective : Function.Injective ofAttribute := by
  rintro _ _ ⟨⟩
  rfl

theorem ofBranch_injective : Function.Injective ofBranch := by
  rintro _ _ ⟨⟩
  rfl

theorem ofTemplate_injective : Function.Injective ofTemplate := by
  rintro _ _ ⟨⟩
  rfl

theorem ofList_injective {α : Type} {view : α → Piece} (injective : Function.Injective view) :
    Function.Injective (ofList view) := by
  intro items others same
  exact List.map_injective_iff.mpr injective (Piece.list.inj same)

end Piece

namespace Entity

/-- The kind of a record. -/
def kind : Entity → Kind
  | .template _ => .template
  | .branch _ => .branch
  | .attr _ => .attr
  | .text _ => .text
  | .element .. => .element
  | .mustache _ => .mustache
  | .block .. => .block
  | .concat _ => .concat
  | .literal _ => .literal
  | .path _ => .path

/-- The unread members of a record. -/
def extra : Entity → Members
  | .template node => node.extra
  | .branch node => node.extra
  | .attr node => node.extra
  | .text node => node.extra
  | .element _ _ _ _ extra => extra
  | .mustache node => node.extra
  | .block _ _ _ _ extra => extra
  | .concat node => node.extra
  | .literal node => node.extra
  | .path node => node.extra

/-- The members that a record of its kind has, in the order of the table. -/
def entries : Entity → List (String × Option Piece)
  | .template node => [("body", some (.ofList .ofNode node.body))]
  | .branch node => [("body", some (.ofList .ofNode node.body))]
  | .attr node =>
    [("name", some (.text node.name)), ("value", some (.ofValue node.value)),
      ("loc", node.location.map .location)]
  | .text node => [("chars", some (.text node.chars)), ("loc", node.location.map .location)]
  | .element tag attributes children location _ =>
    [("tag", some (.text tag)), ("attributes", some (.ofList .ofAttribute attributes)),
      ("children", some (.ofList .ofNode children)), ("loc", location.map .location)]
  | .mustache node =>
    [("path", some (.ofExpression node.path)), ("loc", node.location.map .location)]
  | .block callee program inverse location _ =>
    [("path", some (.ofExpression callee)), ("program", some (.ofBranch program)),
      ("inverse", inverse.map .ofBranch), ("loc", location.map .location)]
  | .concat node => [("parts", some (.ofList .ofPart node.parts))]
  | .literal node =>
    [("value", some (.text node.value)), ("loc", node.location.map .location)]
  | .path node => [("original", some (.text node.name)), ("loc", node.location.map .location)]

/-- The member of a record with a name, if its kind has one and it is there. -/
def member? (entity : Entity) (name : String) : Option Piece := (entity.entries.lookup name).join

theorem entries_eq_map (entity : Entity) :
    entity.entries = entity.kind.names.map fun name => (name, entity.member? name) := by
  cases entity <;> rfl

theorem member?_eq_none (entity : Entity) {name : String} (undeclared : name ∉ entity.kind.names) :
    entity.member? name = none := by
  have absent : entity.entries.lookup name = none := by
    rw [entries_eq_map, List.lookup_eq_none_iff]
    intro entry among
    obtain ⟨other, declared, rfl⟩ := List.mem_map.mp among
    exact bne_iff_ne.mpr fun same => undeclared (same ▸ declared)
  rw [member?, absent]
  rfl

theorem exists_member (entity : Entity) {field : Field} (declared : field ∈ entity.kind.fields)
    (needed : field.need ≠ .optional) : ∃ piece, entity.member? field.name = some piece := by
  have each : ∀ field ∈ entity.kind.fields, field.need ≠ .optional →
      (entity.member? field.name).isSome := by
    cases entity <;> simp [kind, Kind.fields, Kind.locationField, member?, entries, lookup_cons_ite]
  exact Option.isSome_iff_exists.mp (each field declared needed)

theorem eq_of_entries {entity other : Entity} (kinds : entity.kind = other.kind)
    (same : entity.entries = other.entries) (extras : entity.extra = other.extra) :
    entity = other := by
  have locations : Function.Injective (Option.map Piece.location) :=
    Option.map_injective fun _ _ same => Piece.location.inj same
  have branches := Option.map_injective Piece.ofBranch_injective
  have nodes := Piece.ofList_injective Piece.ofNode_injective
  have attributes := Piece.ofList_injective Piece.ofAttribute_injective
  have parts := Piece.ofList_injective Piece.ofPart_injective
  cases entity <;> cases other <;> try cases kinds
  all_goals
    simp only [entries, List.cons.injEq, Prod.mk.injEq, Option.some.injEq, Piece.text.injEq,
        true_and, and_true, locations.eq_iff, branches.eq_iff, nodes.eq_iff, attributes.eq_iff,
        parts.eq_iff, Piece.ofBranch_injective.eq_iff, Piece.ofExpression_injective.eq_iff,
        Piece.ofValue_injective.eq_iff] at same
  case template.template node other => cases node; cases other; simp_all [extra]
  case branch.branch node other => cases node; cases other; simp_all [extra, Block.extra, Block.body]
  case attr.attr node other => cases node; cases other; simp_all [extra]
  case text.text node other => cases node; cases other; simp_all [extra]
  case element.element => simp_all [extra]
  case mustache.mustache node other => cases node; cases other; simp_all [extra]
  case block.block => simp_all [extra]
  case concat.concat node other => cases node; cases other; simp_all [extra]
  case literal.literal node other => cases node; cases other; simp_all [extra]
  case path.path node other => cases node; cases other; simp_all [extra]

/-- Two records are equal if they are of one kind and have the same members. -/
theorem eq_of_members {entity other : Entity} (kinds : entity.kind = other.kind)
    (members : ∀ field ∈ entity.kind.fields, entity.member? field.name = other.member? field.name)
    (extras : entity.extra = other.extra) : entity = other := by
  have entries : entity.entries = other.entries := by
    rw [entries_eq_map, entries_eq_map, ← kinds]
    apply List.map_congr_left
    intro name among
    obtain ⟨field, declared, rfl⟩ := List.mem_map.mp among
    rw [members field declared]
  exact eq_of_entries kinds entries extras

/-- A record as JSON. -/
def toJson : Entity → Json
  | .template node => node.toJson
  | .branch node => node.toJson
  | .attr node => node.toJson
  | .text node => node.toJson
  | .element tag attributes children location extra =>
    (Node.element tag attributes children location extra).toJson
  | .mustache node => node.toJson
  | .block callee program inverse location extra =>
    (Node.block callee program inverse location extra).toJson
  | .concat node => (AttributeValue.concat node).toJson
  | .literal node => (Expression.literal node).toJson
  | .path node => (Expression.path node).toJson

end Entity

namespace Piece

mutual
/-- A piece as JSON. -/
def toJson : Piece → Json
  | .text content => .string content
  | .location place => place.toJson
  | .list items => .array (listToJson items)
  | .entity record => record.toJson
  | .other value => value
/-- Pieces as JSON. -/
def listToJson : List Piece → List Json
  | [] => []
  | piece :: rest => piece.toJson :: listToJson rest
end

theorem listToJson_eq_map (items : List Piece) : listToJson items = items.map toJson := by
  induction items with
  | nil => rfl
  | cons piece rest ih => exact congrArg (piece.toJson :: ·) ih

theorem toJson_list (items : List Piece) : (list items).toJson = .array (items.map toJson) :=
  congrArg Json.array (listToJson_eq_map items)

theorem toJson_ofNode (node : Node) : (ofNode node).toJson = node.toJson := by
  cases node <;> rfl

theorem toJson_ofValue (value : AttributeValue) : (ofValue value).toJson = value.toJson := by
  cases value <;> rfl

theorem toJson_ofPart (part : Part) : (ofPart part).toJson = part.toJson := by
  cases part <;> rfl

theorem toJson_ofExpression (expression : Expression) :
    (ofExpression expression).toJson = expression.toJson := by
  cases expression <;> rfl

theorem toJson_ofAttribute (attr : Attribute) : (ofAttribute attr).toJson = attr.toJson := rfl

theorem toJson_ofBranch (block : Block) : (ofBranch block).toJson = block.toJson := rfl

theorem toJson_ofList {α : Type} {view : α → Piece} {write : α → Json}
    (written : ∀ item, (view item).toJson = write item) (items : List α) :
    (ofList view items).toJson = .array (items.map write) := by
  rw [ofList, toJson_list, List.map_map]
  congr 1
  exact List.map_congr_left fun item _ => written item

theorem listToJson_nodes (nodes : List Node) : Node.listToJson nodes = nodes.map Node.toJson := by
  induction nodes with
  | nil => rfl
  | cons node rest ih => exact congrArg (node.toJson :: ·) ih

theorem toJson_ofNodes (nodes : List Node) :
    (ofList ofNode nodes).toJson = .array (Node.listToJson nodes) := by
  rw [toJson_ofList toJson_ofNode, listToJson_nodes]

end Piece

namespace Entity

/-- The members that a record has of those of its kind, as JSON. -/
def written (entity : Entity) : Members :=
  .select entity.kind.names fun name => (entity.member? name).map Piece.toJson

/-- The members that a record is written with: its tag, those of its kind, and the unread ones. -/
def members (entity : Entity) : Members :=
  entity.kind.tagMember ++ entity.written ++ entity.extra

theorem written_eq_filterMap (entity : Entity) : entity.written =
    entity.entries.filterMap fun entry => entry.2.map fun piece => (entry.1, piece.toJson) := by
  rw [entries_eq_map, List.filterMap_map, written, Members.select]
  simp only [Option.map_map]
  rfl

theorem toJson_eq (entity : Entity) : entity.toJson = .object entity.members := by
  rw [members, written_eq_filterMap]
  cases entity with
  | template node =>
    simp only [entries, List.filterMap, Option.map, Piece.toJson_ofNodes]
    rfl
  | branch node =>
    cases node
    simp only [entries, List.filterMap, Option.map, Piece.toJson_ofNodes, toJson, Block.toJson]
    rfl
  | attr node =>
    rcases node with ⟨name, value, _ | place, extra⟩ <;>
      simp only [entries, List.filterMap, Option.map, Piece.toJson_ofValue] <;> rfl
  | text node => rcases node with ⟨chars, _ | place, extra⟩ <;> rfl
  | element tag attributes children place extra =>
    cases place <;>
      simp only [entries, List.filterMap, Option.map, Piece.toJson_ofNodes,
        Piece.toJson_ofList Piece.toJson_ofAttribute, toJson, Node.toJson] <;> rfl
  | mustache node =>
    rcases node with ⟨path, _ | place, extra⟩ <;>
      simp only [entries, List.filterMap, Option.map, Piece.toJson_ofExpression] <;> rfl
  | block path program inverse place extra =>
    cases inverse <;> cases place <;>
      simp only [entries, List.filterMap, Option.map, Piece.toJson_ofExpression,
        Piece.toJson_ofBranch, toJson, Node.toJson] <;> rfl
  | concat node =>
    simp only [entries, List.filterMap, Option.map, Piece.toJson_ofList Piece.toJson_ofPart]
    rfl
  | literal node => rcases node with ⟨value, _ | place, extra⟩ <;> rfl
  | path node => rcases node with ⟨name, _ | place, extra⟩ <;> rfl

/-- The unread members of a record are none that its kind has a use for, and no two have one key. -/
structure Apart (entity : Entity) : Prop where
  distinct : (entity.extra.map Prod.fst).Nodup
  unread : ∀ key ∈ entity.extra.map Prod.fst, key ∉ entity.kind.keys

variable {entity : Entity}

theorem get?_members (entity : Entity) (key : String) :
    entity.members.get? key = ((entity.kind.tagMember.get? key).or
      (if key ∈ entity.kind.names then (entity.member? key).map Piece.toJson else none)).or
        (entity.extra.get? key) := by
  rw [members, Members.get?_append, Members.get?_append, written, Members.get?_select]

theorem keys_sublist (entity : Entity) :
    ((entity.kind.tagMember ++ entity.written).map Prod.fst).Sublist entity.kind.keys := by
  rw [List.map_append]
  exact List.Sublist.append_left (Members.map_fst_select_sublist ..) _

namespace Apart

theorem of_filter {members : Members} (distinct : (members.map Prod.fst).Nodup)
    (extra : entity.extra = members.filter fun member => member.1 ∉ entity.kind.keys) :
    entity.Apart where
  distinct := by
    rw [extra]
    exact (List.filter_sublist.map Prod.fst).nodup distinct
  unread := by
    intro key among
    rw [extra] at among
    obtain ⟨member, kept, rfl⟩ := List.mem_map.mp among
    simpa using (List.mem_filter.mp kept).2

theorem get?_extra (apart : entity.Apart) {key : String} (read : key ∈ entity.kind.keys) :
    entity.extra.get? key = none :=
  Members.get?_eq_none_iff.mpr fun among => apart.unread key among read

theorem get?_name (apart : entity.Apart) {name : String} (declared : name ∈ entity.kind.names) :
    entity.members.get? name = (entity.member? name).map Piece.toJson := by
  have untagged : entity.kind.tagMember.get? name = none :=
    Members.get?_eq_none_iff.mpr (List.disjoint_of_nodup_append entity.kind.nodup_keys · declared)
  have read : name ∈ entity.kind.keys := List.mem_append_right _ declared
  rw [get?_members, untagged, if_pos declared, apart.get?_extra read, Option.none_or,
    Option.or_none]

theorem get?_tag (apart : entity.Apart) {key : String}
    (tags : key ∈ entity.kind.tagMember.map Prod.fst) :
    entity.members.get? key = entity.kind.tagMember.get? key := by
  have undeclared : key ∉ entity.kind.names :=
    List.disjoint_of_nodup_append entity.kind.nodup_keys tags
  have read : key ∈ entity.kind.keys := List.mem_append_left _ tags
  rw [get?_members, if_neg undeclared, apart.get?_extra read, Option.or_none, Option.or_none]

theorem distinct_members (apart : entity.Apart) : (entity.members.map Prod.fst).Nodup := by
  have read := entity.keys_sublist
  rw [members, List.map_append, List.nodup_append']
  refine ⟨read.nodup entity.kind.nodup_keys, apart.distinct, ?_⟩
  intro key among unread
  exact apart.unread key unread (read.subset among)

/-- The members that are none of those that the kind has a use for are the unread ones. -/
theorem filter_members (apart : entity.Apart) :
    (entity.members.filter fun member => member.1 ∉ entity.kind.keys) = entity.extra := by
  have dropped : (entity.kind.tagMember ++ entity.written).filter
      (fun member => member.1 ∉ entity.kind.keys) = [] := by
    rw [List.filter_eq_nil_iff]
    intro member among
    have read := entity.keys_sublist.subset (List.mem_map_of_mem among)
    simpa using read
  have kept : entity.extra.filter (fun member => member.1 ∉ entity.kind.keys) = entity.extra := by
    rw [List.filter_eq_self]
    intro member among
    simpa using apart.unread member.1 (List.mem_map_of_mem among)
  rw [members, List.filter_append, dropped, kept, List.nil_append]

end Apart

theorem get?_unread (entity : Entity) {key : String} (unread : key ∉ entity.kind.keys) :
    entity.members.get? key = entity.extra.get? key := by
  rw [Kind.keys, List.mem_append, not_or] at unread
  rw [get?_members, Members.get?_eq_none_iff.mpr unread.1, if_neg unread.2, Option.none_or,
    Option.none_or]

end Entity

end TemplateLint.Schema
