import Mathlib
import TemplateLint.Proofs.Positions
import TemplateLint.Proofs.Rewriting

/-! # Sound pieces

A piece is sound at a position if it is of a kind that the position calls for, keeps apart what it
has read and what it has not, and is made of sound pieces. What is decoded is sound, what is sound
is decoded from what is written for it, and a template stays sound when its texts are replaced.
-/

namespace TemplateLint.Schema

open Json

/-- A kind of record that may stand at a position. -/
def Layout.Allows : Layout → Kind → Prop
  | .record fixed, kind => fixed = kind
  | .tagged kinds _, kind => kind ∈ kinds
  | _, _ => False

/-- A piece that may stand at a position, with all that it is made of. -/
inductive Sound : Shape → Piece → Prop where
  | text {shape : Shape} (layout : shape.layout = .text) (text : String) : Sound shape (.text text)
  | location {shape : Shape} (layout : shape.layout = .location) {place : Location}
      (line : place.line < 2 ^ 64) (column : place.column < 2 ^ 64) : Sound shape (.location place)
  | list {shape item : Shape} (layout : shape.layout = .list item) {items : List Piece}
      (each : ∀ piece ∈ items, Sound item piece) : Sound shape (.list items)
  | entity {shape : Shape} {entity : Entity} (allowed : shape.layout.Allows entity.kind)
      (apart : entity.Apart) (proper : ∀ member ∈ entity.extra, member.2.Proper)
      (each : ∀ field ∈ entity.kind.fields, ∀ piece, entity.member? field.name = some piece →
        Sound field.shape piece) : Sound shape (.entity entity)
  | other {shape : Shape} {value : Json} (isOpen : shape.layout.isOpen = true)
      (unknown : shape.layout.kind? value = none) (proper : value.Proper) :
      Sound shape (.other value)

variable {shape : Shape} {kind : Kind} {value : Json} {piece : Piece} {entity : Entity}

/-! ## What is decoded is sound -/

theorem Layout.allows_of_kind? {layout : Layout} (known : layout.kind? value = some kind) :
    layout.Allows kind := by
  cases layout with
  | record fixed => exact Option.some.inj known
  | tagged kinds isOpen => exact (kind?_tagged_eq_some known).1
  | _ => cases known

theorem lt_of_proper_ofNat {n : Nat} (proper : (ofNat n).Proper) : n < 2 ^ 64 := by
  cases proper with
  | integer low high => omega

theorem Sound.of_locates {place : Location} (layout : shape.layout = .location)
    (proper : value.Proper) (locates : Locates value place) : Sound shape (.location place) := by
  cases locates with
  | pair line column =>
    have index : ∀ item ∈ [ofNat line, ofNat column], item.Proper := fun _ =>
      proper.of_mem_children
    exact .location layout (lt_of_proper_ofNat (index _ (by simp)))
      (lt_of_proper_ofNat (index _ (by simp)))
  | record lineGiven columnGiven =>
    exact .location layout (lt_of_proper_ofNat (proper.of_get? lineGiven))
      (lt_of_proper_ofNat (proper.of_get? columnGiven))

theorem decode_sound (proper : value.Proper) (decoded : shape.decode value = .ok piece) :
    Sound shape piece := by
  induction value using Json.induction generalizing shape piece with
  | step value ih =>
    cases (decode_iff proper).mp decoded with
    | text layout text => exact .text layout text
    | location layout locates => exact .of_locates layout proper locates
    | @list item layout values pieces each =>
      refine .list layout fun piece among => ?_
      obtain ⟨i, here⟩ := List.mem_iff_getElem?.mp among
      obtain ⟨bound, rfl⟩ := List.getElem?_eq_some_iff.mp here
      have there : i < values.length := each.length_eq ▸ bound
      have child : values[i] ∈ (Json.array values).children := List.getElem_mem there
      exact ih _ child (proper.of_mem_children child) (each.get there bound)
    | @entity members entity known reads extra =>
      refine .entity (Layout.allows_of_kind? known) (.of_filter proper.distinct extra) ?_ ?_
      · intro member among
        rw [extra] at among
        exact proper.of_mem_children (List.mem_map_of_mem (List.mem_filter.mp among).1)
      · intro field declared piece found
        have reading := reads field declared
        rw [found] at reading
        cases given : members.get? field.name with
        | none =>
          rw [given] at reading
          generalize default : some piece = output at reading
          cases reading
          rw [Field.default?] at default
          split_ifs at default with listed
          obtain ⟨item, layout⟩ := Kind.layout_of_listed declared listed
          obtain rfl := Option.some.inj default
          exact .list layout (List.forall_mem_nil _)
        | some value =>
          rw [given] at reading
          cases reading with
          | value _ decoded =>
            exact ih value (mem_children_of_get? given) (proper.of_get? given) decoded
    | other isOpen unknown => exact .other isOpen unknown proper

/-! ## What is sound is decoded from what is written for it -/

namespace Sound

theorem proper_ofNat {n : Nat} (small : n < 2 ^ 64) : (ofNat n).Proper :=
  .integer (by omega) (by omega)

theorem proper_members (apart : entity.Apart) (proper : ∀ member ∈ entity.extra, member.2.Proper)
    (each : ∀ field ∈ entity.kind.fields, ∀ piece, entity.member? field.name = some piece →
      piece.toJson.Proper) : (Json.object entity.members).Proper := by
  refine .object apart.distinct_members fun member among => ?_
  rw [Entity.members, List.append_assoc, List.mem_append, List.mem_append] at among
  rcases among with tag | written | extra
  · obtain ⟨name, _, rfl⟩ := List.mem_map.mp tag
    exact .string name
  · obtain ⟨name, declared, found⟩ := List.mem_filterMap.mp written
    obtain ⟨value, present, rfl⟩ := Option.map_eq_some_iff.mp found
    obtain ⟨piece, here, rfl⟩ := Option.map_eq_some_iff.mp present
    obtain ⟨field, among, rfl⟩ := List.mem_map.mp declared
    exact each field among piece here
  · exact proper member extra

/-- What is written for a sound piece is a value as reading gives it. -/
theorem proper (sound : Sound shape piece) : piece.toJson.Proper := by
  induction sound with
  | text layout text => exact .string text
  | location layout line column =>
    refine .object (show ["line", "column"].Nodup by decide) ?_
    intro member among
    rcases List.mem_cons.mp among with rfl | among
    · exact proper_ofNat line
    · rw [List.mem_singleton.mp among]
      exact proper_ofNat column
  | list layout each ih =>
    rw [Piece.toJson_list]
    refine .array fun item among => ?_
    obtain ⟨piece, member, rfl⟩ := List.mem_map.mp among
    exact ih piece member
  | entity allowed apart proper each ih =>
    rw [Piece.toJson, Entity.toJson_eq]
    exact proper_members apart proper ih
  | other isOpen unknown proper => exact proper

/-- The kinds that stand at a position are told apart by their tags. -/
theorem find?_of_mem {kinds : List Kind} {isOpen : Bool}
    (layout : shape.layout = .tagged kinds isOpen) (among : kind ∈ kinds) :
    ∃ tag, kind.tag? = some tag ∧ kinds.find? (fun other => other.tag? == some tag) = some kind := by
  have each : ∀ kind ∈ kinds, kind.tag?.isSome = true ∧
      kinds.find? (fun other => other.tag? == kind.tag?) = some kind := by
    cases shape <;> cases layout <;> decide
  obtain ⟨tagged, found⟩ := each kind among
  obtain ⟨tag, same⟩ := Option.isSome_iff_exists.mp tagged
  exact ⟨tag, same, same ▸ found⟩

/-- A record is known at its position by what is written for it. -/
theorem kind?_members (allowed : shape.layout.Allows entity.kind) (apart : entity.Apart) :
    shape.layout.kind? (.object entity.members) = some entity.kind := by
  cases layout : shape.layout with
  | record fixed =>
    rw [layout] at allowed
    exact congrArg some allowed
  | tagged kinds isOpen =>
    rw [layout] at allowed
    obtain ⟨tag, tagged, found⟩ := find?_of_mem layout allowed
    have present : entity.members.get? "type" = some (.string tag) := by
      have tags : "type" ∈ entity.kind.tagMember.map Prod.fst := by simp [Kind.tagMember, tagged]
      rw [apart.get?_tag tags, Kind.tagMember, tagged]
      rfl
    have told : (Json.object entity.members).tag? = some tag := by
      rw [tag?, Json.get?, present, Option.bind_some, string?]
    rw [← layout, kind?_of_tag? layout told, found]
  | _ =>
    rw [layout] at allowed
    exact allowed.elim

/-- No null is written for a member that may be null. -/
theorem toJson_ne_null {field : Field} (declared : field ∈ kind.fields)
    (optional : field.need = .optional) (sound : Sound field.shape piece) :
    piece.toJson ≠ .null := by
  have shapes : ∀ field ∈ kind.fields, field.need = .optional →
      field.shape = .location ∨ field.shape = .branch := by
    cases kind <;> decide
  intro null
  have shape := shapes field declared optional
  cases sound with
  | text layout => rcases shape with shape | shape <;> rw [shape] at layout <;> cases layout
  | location => cases null
  | list layout => rcases shape with shape | shape <;> rw [shape] at layout <;> cases layout
  | entity => rw [Piece.toJson, Entity.toJson_eq] at null; cases null
  | other isOpen => rcases shape with shape | shape <;> rw [shape] at isOpen <;> cases isOpen

/-- A sound piece is decoded from what is written for it. -/
theorem decode_toJson (sound : Sound shape piece) : shape.decode piece.toJson = .ok piece := by
  rw [decode_iff sound.proper]
  induction sound with
  | text layout text => exact .text layout text
  | location layout line column => exact .location layout (.record rfl rfl)
  | @list shape item layout items each ih =>
    rw [Piece.toJson_list]
    refine .list layout (List.forall₂_map_left_iff.mpr (List.forall₂_same.mpr ?_))
    intro piece among
    exact (decode_iff (each piece among).proper).mpr (ih piece among)
  | @entity shape entity allowed apart proper each ih =>
    rw [Piece.toJson, Entity.toJson_eq]
    refine .entity (kind?_members allowed apart) ?_ apart.filter_members.symm
    intro field declared
    rw [apart.get?_name (List.mem_map_of_mem declared)]
    cases found : entity.member? field.name with
    | none =>
      have optional : field.need = .optional := by
        by_contra needed
        obtain ⟨piece, present⟩ := entity.exists_member declared needed
        exact absurd (found.symm.trans present) nofun
      have nothing : field.default? = none := by simp [Field.default?, optional]
      rw [Option.map_none, ← nothing]
      exact .absent (by simp [optional])
    | some piece =>
      have inner := each field declared piece found
      exact .value (fun null => toJson_ne_null declared null.1 inner null.2)
        ((decode_iff inner.proper).mpr (ih field declared piece found))
  | other isOpen unknown => exact .other isOpen unknown

/-! ## Replacing texts -/

theorem member {field : Field} (sound : Sound shape (.entity entity)) (name : String)
    (declared : entity.kind.field? name = some field) (found : entity.member? name = some piece) :
    Sound field.shape piece := by
  obtain ⟨among, rfl⟩ := Kind.field?_eq_some declared
  cases sound with
  | entity _ _ _ each => exact each field among piece found

theorem item {item : Shape} {items : List Piece} (sound : Sound shape (.list items))
    (layout : shape.layout = .list item) (among : piece ∈ items) : Sound item piece := by
  cases sound with
  | list layout' each =>
    obtain rfl := Layout.list.inj (layout'.symm.trans layout)
    exact each piece among

/-- A record stays sound if each of its members stays or is replaced by a sound one. -/
theorem update {changed : Entity} (sound : Sound shape (.entity entity))
    (kinds : changed.kind = entity.kind) (extras : changed.extra = entity.extra)
    (members : ∀ field ∈ entity.kind.fields, ∀ piece, changed.member? field.name = some piece →
      entity.member? field.name = some piece ∨ Sound field.shape piece) :
    Sound shape (.entity changed) := by
  cases sound with
  | entity allowed apart proper each =>
    have stillApart : changed.Apart := by
      constructor
      · rw [extras]
        exact apart.distinct
      · rw [extras, kinds]
        exact apart.unread
    refine .entity (kinds ▸ allowed) stillApart (extras ▸ proper) ?_
    intro field declared piece found
    rw [kinds] at declared
    rcases members field declared piece found with kept | replaced
    · exact each field declared piece kept
    · exact replaced

end Sound

mutual
theorem Sound.rewrite (chars : Address → Option String) : (node : Node) →
    Sound .node (.ofNode node) → Sound .node (.ofNode (node.rewrite chars))
  | .text node, sound => by
    refine Sound.update sound rfl rfl fun field declared piece found => ?_
    simp only [Entity.kind, Kind.fields, List.mem_cons, List.not_mem_nil, or_false] at declared
    rcases declared with rfl | rfl
    · obtain rfl := Option.some.inj found
      exact .inr (.text rfl _)
    · exact .inl found
  | .element tag attributes children place extra, sound => by
    have inner : Sound .nodes (.ofList .ofNode children) := sound.member "children" rfl rfl
    refine Sound.update sound rfl rfl fun field declared piece found => ?_
    simp only [Entity.kind, Kind.fields, List.mem_cons, List.not_mem_nil, or_false] at declared
    rcases declared with rfl | rfl | rfl | rfl
    · exact .inl found
    · exact .inl found
    · obtain rfl := Option.some.inj found
      exact .inr (Sound.listRewrite _ children inner)
    · exact .inl found
  | .mustache node, sound => sound
  | .block callee program inverse place extra, sound => by
    have inner : Sound .branch (.ofBranch program) := sound.member "program" rfl rfl
    refine Sound.update sound rfl rfl fun field declared piece found => ?_
    simp only [Entity.kind, Kind.fields, List.mem_cons, List.not_mem_nil, or_false] at declared
    rcases declared with rfl | rfl | rfl | rfl
    · exact .inl found
    · obtain rfl := Option.some.inj found
      exact .inr (Sound.branchRewrite _ program inner)
    · exact .inr (Sound.optionRewrite _ inverse (fun _ => sound.member "inverse" rfl) piece found)
    · exact .inl found
  | .other value, sound => sound
theorem Sound.listRewrite (chars : Nat → Address → Option String) : (nodes : List Node) →
    Sound .nodes (.ofList .ofNode nodes) →
      Sound .nodes (.ofList .ofNode (Node.listRewrite chars nodes))
  | [], sound => sound
  | node :: rest, sound => by
    have first : Sound .node (.ofNode node) := sound.item rfl (List.mem_cons_self ..)
    have others : Sound .nodes (.ofList .ofNode rest) :=
      .list rfl fun piece among => sound.item rfl (List.mem_cons_of_mem _ among)
    refine .list rfl fun piece among => ?_
    rcases List.mem_cons.mp among with rfl | later
    · exact Sound.rewrite _ node first
    · exact (Sound.listRewrite _ rest others).item rfl later
theorem Sound.branchRewrite (chars : Nat → Address → Option String) : (block : Block) →
    Sound .branch (.ofBranch block) → Sound .branch (.ofBranch (block.rewrite chars))
  | .mk body extra, sound => by
    have inner : Sound .nodes (.ofList .ofNode body) := sound.member "body" rfl rfl
    refine Sound.update sound rfl rfl fun field declared piece found => ?_
    obtain rfl := List.mem_singleton.mp declared
    obtain rfl := Option.some.inj found
    exact .inr (Sound.listRewrite chars body inner)
theorem Sound.optionRewrite (chars : Nat → Address → Option String) : (inverse : Option Block) →
    (∀ piece, inverse.map Piece.ofBranch = some piece → Sound .branch piece) →
      ∀ piece, (Block.optionRewrite chars inverse).map Piece.ofBranch = some piece →
        Sound .branch piece
  | none, _ => nofun
  | some block, sound => by
    rintro piece found
    obtain rfl := Option.some.inj found
    exact Sound.branchRewrite chars block (sound _ rfl)
end

/-- A template stays sound when its texts are replaced. -/
theorem Sound.template_rewrite (chars : Address → Option String) {template : Template}
    (sound : Sound .template (.ofTemplate template)) :
    Sound .template (.ofTemplate (template.rewrite chars)) := by
  have inner : Sound .nodes (.ofList .ofNode template.body) := sound.member "body" rfl rfl
  refine Sound.update sound rfl rfl fun field declared piece found => ?_
  obtain rfl := List.mem_singleton.mp declared
  obtain rfl := Option.some.inj found
  exact .inr (Sound.listRewrite _ template.body inner)

end TemplateLint.Schema
