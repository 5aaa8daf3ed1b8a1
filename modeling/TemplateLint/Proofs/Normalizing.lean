import Mathlib
import TemplateLint.Proofs.Positions

/-! # The normal form of a template

Writing what was decoded gives the input back in a normal form. The normal form differs from the
input only where a record of a known kind stands: a member that is null because it is optional is
left out, a list that was left out is there as an empty one, and a location is an object of a line
and a column. `rework` walks down a value along the schema; the normal form is the walk that also
completes each record on the way up.
-/

namespace TemplateLint.Schema

open Json

/-! ## Reworking a value along the schema -/

/-- A location given as an object of a line and a column. -/
def plainLocation : Json → Json
  | .array [line, column] => .object [("line", line), ("column", column)]
  | .object members => .object (members.filter fun member => member.1 ∈ ["line", "column"])
  | value => value

mutual
/-- Change a value at a position: locations are made plain, and the members of each record are
finished when they have been changed themselves. -/
def rework (finish : Kind → Members → Members) (shape : Shape) : Json → Json
  | .array values =>
    match shape.layout with
    | .location => plainLocation (.array values)
    | .list item => .array (reworkItems finish item values)
    | _ => .array values
  | .object members =>
    match shape.layout with
    | .location => plainLocation (.object members)
    | layout =>
      match layout.kind? (.object members) with
      | some kind => .object (finish kind (reworkMembers finish kind members))
      | none => .object members
  | value => value
/-- Change the items of a list. -/
def reworkItems (finish : Kind → Members → Members) (shape : Shape) : List Json → List Json
  | [] => []
  | value :: rest => rework finish shape value :: reworkItems finish shape rest
/-- Change the members of a record; the unread ones stay as they are. -/
def reworkMembers (finish : Kind → Members → Members) (kind : Kind) :
    List (String × Json) → List (String × Json)
  | [] => []
  | (key, value) :: rest =>
    match kind.field? key with
    | some field => (key, rework finish field.shape value) :: reworkMembers finish kind rest
    | none => (key, value) :: reworkMembers finish kind rest
end

/-- Whether a member says that something optional is not there. -/
def isNullOptional (kind : Kind) (member : String × Json) : Bool :=
  match member.2, kind.field? member.1 with
  | .null, some field => field.need = .optional
  | _, _ => false

/-- The lists of a record that were left out. -/
def missingLists (kind : Kind) (members : Members) : Members :=
  .select kind.lists fun name => if (members.get? name).isNone then some (.array []) else none

/-- A record with all of its lists and without members that are null. -/
def complete (kind : Kind) (members : Members) : Members :=
  (members.filter fun member => !isNullOptional kind member) ++ missingLists kind members

/-- The normal form of a value at a position. -/
def normal : Shape → Json → Json := rework complete

variable {shape : Shape} {kind : Kind} {members : Members} {value : Json} {piece : Piece}
  {finish : Kind → Members → Members}

theorem reworkItems_eq_map (values : List Json) :
    reworkItems finish shape values = values.map (rework finish shape) := by
  induction values with
  | nil => rw [reworkItems]; rfl
  | cons value rest ih => rw [reworkItems, ih, List.map_cons]

/-- The value of a member of a record after the change. -/
def reworkMember (finish : Kind → Members → Members) (kind : Kind) (key : String) (value : Json) : Json :=
  match kind.field? key with
  | some field => rework finish field.shape value
  | none => value

theorem reworkMembers_eq_map (members : Members) : reworkMembers finish kind members =
    members.map fun member => (member.1, reworkMember finish kind member.1 member.2) := by
  induction members with
  | nil => rw [reworkMembers]; rfl
  | cons member rest ih =>
    rcases member with ⟨key, value⟩
    cases found : kind.field? key with
    | none => simp [reworkMembers, reworkMember, found, ih]
    | some field => simp [reworkMembers, reworkMember, found, ih]

theorem rework_list {item : Shape} (layout : shape.layout = .list item) (values : List Json) :
    rework finish shape (.array values) = .array (values.map (rework finish item)) := by
  rw [rework, layout]
  simp only [reworkItems_eq_map]

theorem rework_location (layout : shape.layout = .location) (value : Json) :
    rework finish shape value = plainLocation value := by
  cases value <;> simp [rework, layout] <;> rfl

theorem rework_entity (known : shape.layout.kind? (.object members) = some kind) :
    rework finish shape (.object members) = .object (finish kind (reworkMembers finish kind members)) := by
  rw [rework]
  split
  · next layout => simp [layout, Layout.kind?] at known
  · rw [known]

/-- What is not known stays as it is. -/
theorem rework_unknown (isOpen : shape.layout.isOpen = true)
    (unknown : shape.layout.kind? value = none) : rework finish shape value = value := by
  cases value with
  | array values =>
    rw [rework]
    split
    · next layout => simp [layout, Layout.isOpen] at isOpen
    · next layout => simp [layout, Layout.isOpen] at isOpen
    · rfl
  | object members =>
    rw [rework]
    split
    · next layout => simp [layout, Layout.isOpen] at isOpen
    · rw [unknown]
  | _ => rw [rework] <;> simp

theorem plainLocation_ne_null (given : value ≠ .null) : plainLocation value ≠ .null := by
  unfold plainLocation
  split
  · exact nofun
  · exact nofun
  · exact given

theorem rework_ne_null (given : value ≠ .null) : rework finish shape value ≠ .null := by
  cases value with
  | array values =>
    rw [rework]
    split
    · exact plainLocation_ne_null given
    · exact nofun
    · exact nofun
  | object members =>
    rw [rework]
    split
    · exact plainLocation_ne_null given
    · split
      · exact nofun
      · exact nofun
  | null => exact absurd rfl given
  | _ => rw [rework] <;> simp

theorem rework_null : rework finish shape .null = .null := by
  rw [rework] <;> simp

theorem get?_reworkMembers (members : Members) (key : String) :
    Members.get? (reworkMembers finish kind members) key =
      (members.get? key).map (reworkMember finish kind key) := by
  rw [reworkMembers_eq_map, Members.get?_map]

/-! ## Writing what was decoded -/

theorem distinct_rework (distinct : (members.map Prod.fst).Nodup) :
    ((reworkMembers finish kind members).map Prod.fst).Nodup := by
  rw [reworkMembers_eq_map, List.map_map]
  exact distinct

theorem isNullOptional_of_unread {key : String} (unread : kind.field? key = none) (value : Json) :
    isNullOptional kind (key, value) = false := by
  unfold isNullOptional
  split
  · next found => exact absurd (unread.symm.trans found) nofun
  · rfl

theorem isNullOptional_of_field {key : String} {field : Field} (found : kind.field? key = some field)
    (value : Json) :
    isNullOptional kind (key, value) = true ↔ value = .null ∧ field.need = .optional := by
  cases value with
  | null => simp [isNullOptional, found]
  | _ => simp [isNullOptional]

/-- The members of a record that was completed. -/
theorem get?_complete (distinct : (members.map Prod.fst).Nodup) (key : String) :
    Members.get? (complete kind members) key =
      match kind.field? key with
      | none => members.get? key
      | some field => (Input.ofField field (members.get? key)).map Input.value := by
  rw [complete, Members.get?_append, Members.get?_filter_of_distinct distinct, missingLists,
    Members.get?_select]
  cases found : kind.field? key with
  | none =>
    have unlisted : key ∉ kind.lists := fun among => by
      obtain ⟨field, there, _⟩ := Kind.mem_lists_iff.mp among
      exact absurd (found.symm.trans there) nofun
    cases members.get? key <;> simp [unlisted, isNullOptional_of_unread found]
  | some field =>
    have listed : key ∈ kind.lists ↔ field.need = .listed := by
      rw [Kind.mem_lists_iff]
      simp [found]
    cases present : members.get? key with
    | none => simp [listed, Input.ofField]
    | some value =>
      by_cases null : value = .null ∧ field.need = .optional
      · have dropped := (isNullOptional_of_field found value).mpr null
        obtain ⟨rfl, optional⟩ := null
        simp [dropped, Input.ofField, optional]
      · have kept : isNullOptional kind (key, value) = false := by
          rw [← Bool.not_eq_true, isNullOptional_of_field found]
          exact null
        have read := Input.ofField_of_given fun given => null given.symm
        simp [kept, read]

/-- What is read of a changed member is the change of what is read of it. -/
theorem ofField_map {field : Field} (declared : field ∈ kind.fields) (given : Option Json) :
    (Input.ofField field (given.map (rework finish field.shape))).map Input.value =
      (Input.ofField field given).map fun input => rework finish input.shape input.value := by
  cases given with
  | none =>
    simp only [Option.map_none, Input.ofField]
    split_ifs with listed
    · obtain ⟨item, layout⟩ := Kind.layout_of_listed declared listed
      simp [rework_list layout]
    · rfl
  | some value =>
    by_cases null : value = .null
    · subst null
      simp only [Option.map_some, rework_null, Input.ofField]
      split_ifs <;> simp [rework_null]
    · rw [Option.map_some, Input.ofField_of_given fun given => rework_ne_null null given.2,
        Input.ofField_of_given fun given => null given.2]
      rfl

/-- The members of a record in normal form. -/
theorem get?_normal (distinct : (members.map Prod.fst).Nodup) (key : String) :
    Members.get? (complete kind (reworkMembers complete kind members)) key =
      match kind.field? key with
      | none => members.get? key
      | some field =>
        (Input.ofField field (members.get? key)).map fun input => normal input.shape input.value := by
  rw [get?_complete (distinct_rework distinct), get?_reworkMembers]
  cases found : kind.field? key with
  | none =>
    have same : reworkMember complete kind key = id := by
      funext value
      simp [reworkMember, found]
    simp [same]
  | some field =>
    have same : reworkMember complete kind key = rework complete field.shape := by
      funext value
      simp [reworkMember, found]
    simp only [same]
    exact ofField_map (Kind.field?_eq_some found).1 _

theorem distinct_complete (distinct : (members.map Prod.fst).Nodup) :
    ((complete kind members).map Prod.fst).Nodup := by
  rw [complete, List.map_append, List.nodup_append']
  refine ⟨(List.filter_sublist.map Prod.fst).nodup distinct, ?_, ?_⟩
  · exact (Members.map_fst_select_sublist ..).nodup kind.nodup_lists
  · intro key among added
    -- A list is added only if no member has its name.
    have missing : members.get? key = none := by
      obtain ⟨member, there, rfl⟩ := List.mem_map.mp added
      obtain ⟨name, _, chosen⟩ := List.mem_filterMap.mp there
      obtain ⟨value, picked, rfl⟩ := Option.map_eq_some_iff.mp chosen
      dsimp only at picked
      split_ifs at picked with absent
      exact Option.isNone_iff_eq_none.mp absent
    have present := (List.filter_sublist.map Prod.fst).subset among
    exact Members.get?_eq_none_iff.mp missing present

theorem rework_string (text : String) : rework finish shape (.string text) = .string text := by
  rw [rework] <;> simp

theorem same_location {place : Location} (proper : value.Proper) (locates : Locates value place) :
    Json.Same place.toJson (plainLocation value) := by
  cases locates with
  | pair line column =>
    refine Same.refl (.object (by simp) ?_)
    have each (child : Json) (among : child ∈ [Json.ofNat line, .ofNat column]) : child.Proper :=
      proper.of_mem_children among
    simpa using each
  | @record members line column lineGiven columnGiven =>
    refine .of_get? (by simp) (distinct_filter proper.distinct) fun key => ?_
    rw [Members.get?_filter fun key => key ∈ ["line", "column"], Members.get?_cons,
      Members.get?_cons, Members.get?_nil]
    by_cases line : key = "line"
    · subst line
      rw [if_pos rfl, if_pos (by decide), lineGiven]
      exact .some (Same.refl (proper.of_get? lineGiven))
    · by_cases column : key = "column"
      · subst column
        rw [if_neg line, if_pos rfl, if_pos (by decide), columnGiven]
        exact .some (Same.refl (proper.of_get? columnGiven))
      · rw [if_neg line, if_neg column, if_neg (by simp [line, column])]
        exact .none

/-- A member that was read is written as the normal form of its value. -/
theorem same_field {field : Field} {given : Option Json} {output : Option Piece}
    (declared : field ∈ kind.fields) (reads : field.Reads given output)
    (below : ∀ value piece, given = some value → field.shape.decode value = .ok piece →
      Json.Same piece.toJson (normal field.shape value)) :
    Option.Rel Json.Same (output.map Piece.toJson)
      ((Input.ofField field given).map fun input => normal input.shape input.value) := by
  cases reads with
  | absent needless =>
    rw [Input.ofField, Field.default?]
    split_ifs with listed
    · obtain ⟨item, layout⟩ := Kind.layout_of_listed declared listed
      refine .some ?_
      change Json.Same _ (normal field.shape (.array []))
      rw [Piece.toJson_list, normal, rework_list layout]
      exact Same.refl (.array (List.forall_mem_nil _))
    · exact .none
  | null optional =>
    rw [Input.ofField, if_pos optional]
    exact .none
  | value stands decoded =>
    rw [Input.ofField_of_given stands]
    exact .some (below _ _ rfl decoded)

/-- Writing what was decoded gives the normal form of the input. -/
theorem same_normal (proper : value.Proper) (decoded : shape.decode value = .ok piece) :
    Json.Same piece.toJson (normal shape value) := by
  induction value using Json.induction generalizing shape piece with
  | step value ih =>
    cases (decode_iff proper).mp decoded with
    | text layout text =>
      rw [normal, rework_string]
      exact .string text
    | location layout locates =>
      rw [normal, rework_location layout]
      exact same_location proper locates
    | list layout each =>
      rw [normal, rework_list layout, Piece.toJson_list]
      refine .array (by simp [each.length_eq]) fun i written other here there => ?_
      rw [List.getElem?_map, Option.map_eq_some_iff] at here there
      obtain ⟨piece, piece_i, rfl⟩ := here
      obtain ⟨child, child_i, rfl⟩ := there
      have among := List.mem_of_getElem? child_i
      have decoded := forall₂_getElem? each child_i piece_i
      exact ih child among (proper.of_mem_children among) decoded
    | @entity members entity known reads extra =>
      rw [normal, rework_entity known, Piece.toJson, entity.toJson_eq]
      have apart := Entity.Apart.of_filter proper.distinct extra
      refine .of_get? apart.distinct_members
        (distinct_complete (distinct_rework proper.distinct)) fun key => ?_
      rw [get?_normal proper.distinct]
      cases found : entity.kind.field? key with
      | some field =>
        obtain ⟨declared, rfl⟩ := Kind.field?_eq_some found
        rw [apart.get?_name (List.mem_map_of_mem declared)]
        exact same_field declared (reads field declared) fun child piece present decoded =>
          ih child (mem_children_of_get? present) (proper.of_get? present) decoded
      | none =>
        have same : entity.members.get? key = members.get? key := by
          by_cases tags : key ∈ entity.kind.tagMember.map Prod.fst
          · rw [apart.get?_tag tags, get?_of_known known tags]
          · have unread : key ∉ entity.kind.keys := by
              rw [Kind.keys, List.mem_append, not_or]
              exact ⟨tags, Kind.field?_eq_none found⟩
            rw [entity.get?_unread unread, extra,
              Members.get?_filter fun key => key ∉ entity.kind.keys]
            exact if_pos (by simpa using unread)
        rw [same]
        cases present : members.get? key with
        | none => exact .none
        | some child => exact .some (Same.refl (proper.of_get? present))
    | other isOpen unknown =>
      rw [normal, rework_unknown isOpen unknown]
      exact Same.refl proper

/-! ## The normal form of a normal form -/

theorem plainLocation_plainLocation (value : Json) :
    plainLocation (plainLocation value) = plainLocation value := by
  cases value with
  | array values =>
    rcases values with _ | ⟨line, _ | ⟨column, _ | ⟨next, rest⟩⟩⟩
    · rfl
    · rfl
    · simp [plainLocation]
    · rfl
  | object members => simp [plainLocation, List.filter_filter]
  | _ => rfl

theorem complete_eq_self (given : ∀ member ∈ members, isNullOptional kind member = false)
    (listed : ∀ name ∈ kind.lists, members.get? name ≠ none) : complete kind members = members := by
  have kept : (members.filter fun member => !isNullOptional kind member) = members :=
    List.filter_eq_self.mpr fun member among => by rw [given member among]; rfl
  have none : missingLists kind members = [] := by
    refine List.filterMap_eq_nil_iff.mpr fun name among => ?_
    obtain ⟨value, present⟩ := Option.ne_none_iff_exists'.mp (listed name among)
    simp [present]
  rw [complete, kept, none, List.append_nil]

theorem mem_complete {member : String × Json} (among : member ∈ complete kind members) :
    (member ∈ members ∧ isNullOptional kind member = false) ∨
      member.1 ∈ kind.lists ∧ member.2 = .array [] := by
  rcases List.mem_append.mp among with kept | added
  · obtain ⟨there, given⟩ := List.mem_filter.mp kept
    exact .inl ⟨there, by simpa using given⟩
  · obtain ⟨name, listed, chosen⟩ := List.mem_filterMap.mp added
    obtain ⟨value, picked, rfl⟩ := Option.map_eq_some_iff.mp chosen
    dsimp only at picked
    split_ifs at picked with absent
    exact .inr ⟨listed, (Option.some.inj picked).symm⟩

/-- The kind of a record is told by its tag alone. -/
theorem kind?_congr {layout : Layout} {others : Members}
    (tags : others.get? "type" = members.get? "type") :
    layout.kind? (.object others) = layout.kind? (.object members) := by
  cases layout with
  | tagged kinds isOpen => simp only [Layout.kind?, tag?, Json.get?, tags]
  | _ => rfl

/-- A value is left alone where it is neither a location nor a list nor a record. -/
theorem rework_cases (shape : Shape) (value : Json) :
    shape.layout = .location ∨ (∃ item values, shape.layout = .list item ∧ value = .array values) ∨
      (∃ members kind, value = .object members ∧ shape.layout.kind? value = some kind) ∨
        ∀ finish, rework finish shape value = value := by
  cases value with
  | array values =>
    cases layout : shape.layout with
    | location => exact .inl rfl
    | list item => exact .inr (.inl ⟨item, values, rfl, rfl⟩)
    | _ => exact .inr (.inr (.inr fun finish => by simp [rework, layout]))
  | object members =>
    cases known : shape.layout.kind? (.object members) with
    | some kind => exact .inr (.inr (.inl ⟨members, kind, rfl, rfl⟩))
    | none =>
      cases layout : shape.layout with
      | location => exact .inl rfl
      | _ =>
        rw [layout] at known
        exact .inr (.inr (.inr fun finish => by simp [rework, layout, known]))
  | _ => exact .inr (.inr (.inr fun finish => by simp [rework]))

theorem isNullOptional_list (key : String) (values : List Json) :
    isNullOptional kind (key, .array values) = false := by
  simp [isNullOptional]

theorem reworkMember_list {name : String} (listed : name ∈ kind.lists) :
    reworkMember finish kind name (.array []) = .array [] := by
  obtain ⟨field, found, need⟩ := Kind.mem_lists_iff.mp listed
  obtain ⟨declared, rfl⟩ := Kind.field?_eq_some found
  obtain ⟨item, layout⟩ := Kind.layout_of_listed declared need
  rw [reworkMember, found]
  exact rework_list layout []

/-- The members of a record in normal form are left alone. -/
theorem complete_normal (distinct : (members.map Prod.fst).Nodup)
    (below : ∀ member ∈ members, ∀ shape, normal shape (normal shape member.2) =
      normal shape member.2) :
    complete kind (reworkMembers complete kind
        (complete kind (reworkMembers complete kind members))) =
      complete kind (reworkMembers complete kind members) := by
  have settled {key : String} {value : Json} (among : (key, value) ∈ members) :
      reworkMember complete kind key (reworkMember complete kind key value) =
        reworkMember complete kind key value := by
    cases found : kind.field? key with
    | none => simp only [reworkMember, found]
    | some field =>
      simp only [reworkMember, found]
      exact below _ among field.shape
  have unchanged : reworkMembers complete kind
      (complete kind (reworkMembers complete kind members)) =
        complete kind (reworkMembers complete kind members) := by
    rw [reworkMembers_eq_map]
    refine (List.map_congr_left fun member among => ?_).trans (List.map_id _)
    rcases mem_complete among with ⟨reworked, _⟩ | ⟨listed, empty⟩
    · rw [reworkMembers_eq_map] at reworked
      obtain ⟨⟨key, value⟩, there, rfl⟩ := List.mem_map.mp reworked
      exact Prod.ext rfl (settled there)
    · rcases member with ⟨key, value⟩
      obtain rfl : value = .array [] := empty
      exact Prod.ext rfl (reworkMember_list listed)
  rw [unchanged]
  apply complete_eq_self
  · intro member among
    rcases mem_complete among with ⟨_, given⟩ | ⟨_, empty⟩
    · exact given
    · rcases member with ⟨key, value⟩
      obtain rfl : value = .array [] := empty
      exact isNullOptional_list key []
  · intro name listed
    obtain ⟨field, found, need⟩ := Kind.mem_lists_iff.mp listed
    rw [get?_normal distinct, found]
    cases present : Members.get? members name with
    | none => simp [Input.ofField, need]
    | some value =>
      have read : Input.ofField field (some value) = some ⟨field.shape, value⟩ :=
        Input.ofField_of_given (by simp [need])
      simp [read]

/-- A normal form is its own normal form. -/
theorem normal_normal (proper : value.Proper) (shape : Shape) :
    normal shape (normal shape value) = normal shape value := by
  induction value using Json.induction generalizing shape with
  | step value ih =>
    rcases rework_cases shape value with
      layout | ⟨item, values, layout, rfl⟩ | ⟨members, kind, rfl, known⟩ | same
    · simp only [normal, rework_location layout, plainLocation_plainLocation]
    · simp only [normal, rework_list layout, List.map_map]
      congr 1
      refine List.map_congr_left fun child among => ?_
      exact ih child among (proper.of_mem_children among) item
    · have tags : Members.get? (complete kind (reworkMembers complete kind members)) "type" =
          Members.get? members "type" := by
        rw [get?_normal proper.distinct, kind.field?_type]
      rw [normal, rework_entity known, rework_entity ((kind?_congr tags).trans known),
        complete_normal proper.distinct]
      intro member among
      have child : member.2 ∈ (Json.object members).children :=
        List.mem_map.mpr ⟨member, among, rfl⟩
      exact ih member.2 child (proper.of_mem_children child)
    · rw [normal, same, same]

/-! ## Templates and their parts -/

/-- Decoding a template or a part of it and writing it again gives its normal form, and a normal
form is its own normal form. -/
theorem toJson_decode_same_normal (value : Json) (proper : value.Proper) :
    (∀ template, Template.decode value = .ok template →
      Json.Same template.toJson (normal .template value)) ∧
    (∀ node, Node.decode value = .ok node → Json.Same node.toJson (normal .node value)) ∧
    (∀ attr, Attribute.decode value = .ok attr → Json.Same attr.toJson (normal .attr value)) ∧
    (∀ content, AttributeValue.decode value = .ok content →
      Json.Same content.toJson (normal .attributeValue value)) ∧
    (∀ expression, Expression.decode value = .ok expression →
      Json.Same expression.toJson (normal .expression value)) ∧
    ∀ shape, normal shape (normal shape value) = normal shape value := by
  refine ⟨fun template decoded => ?_, fun node decoded => ?_, fun attr decoded => ?_,
    fun content decoded => ?_, fun expression decoded => ?_, normal_normal proper⟩
  · have piece : Shape.template.decode value = .ok (.ofTemplate template) :=
      map_eq_ok_iff.mpr ⟨template, decoded, rfl⟩
    exact same_normal proper piece
  · rw [← Piece.toJson_ofNode]
    have piece : Shape.node.decode value = .ok (.ofNode node) :=
      map_eq_ok_iff.mpr ⟨node, decoded, rfl⟩
    exact same_normal proper piece
  · have piece : Shape.attr.decode value = .ok (.ofAttribute attr) :=
      map_eq_ok_iff.mpr ⟨attr, decoded, rfl⟩
    exact same_normal proper piece
  · rw [← Piece.toJson_ofValue]
    have piece : Shape.attributeValue.decode value = .ok (.ofValue content) :=
      map_eq_ok_iff.mpr ⟨content, decoded, rfl⟩
    exact same_normal proper piece
  · rw [← Piece.toJson_ofExpression]
    have piece : Shape.expression.decode value = .ok (.ofExpression expression) :=
      map_eq_ok_iff.mpr ⟨expression, decoded, rfl⟩
    exact same_normal proper piece

/-- An element with a null location and without attributes; its text has a location that is given
as an array and a member that is null but not optional. -/
def sparse : Json :=
  .object [("loc", .null), ("tag", .string "p"), ("type", .string "ElementNode"),
    ("children", .array [.object [("type", .string "TextNode"), ("chars", .string "Hi"),
      ("loc", .array [.ofNat 1, .ofNat 3]), ("note", .null)]])]

theorem sparse_proper : sparse.Proper := by
  have index (n : Nat) (small : n < 4) : (Json.ofNat n).Proper :=
    .integer (by omega) (by omega)
  have place : (Json.array [.ofNat 1, .ofNat 3]).Proper :=
    .array (by simp [index 1 (by decide), index 3 (by decide)])
  have text : (Json.object [("type", .string "TextNode"), ("chars", .string "Hi"),
      ("loc", .array [.ofNat 1, .ofNat 3]), ("note", .null)]).Proper :=
    .object (by decide) (by simp [Proper.string, Proper.null, place])
  have children : (Json.array [Json.object [("type", .string "TextNode"), ("chars", .string "Hi"),
      ("loc", .array [.ofNat 1, .ofNat 3]), ("note", .null)]]).Proper :=
    .array (by simpa using text)
  exact .object (by decide) (by simp [Proper.string, Proper.null, children])

theorem toJson_decode_same_normal_sparse :
    sparse.Proper ∧ ∃ node, Node.decode sparse = .ok node ∧
      Json.Same node.toJson (.object [("tag", .string "p"), ("type", .string "ElementNode"),
        ("children", .array [.object [("type", .string "TextNode"), ("chars", .string "Hi"),
          ("loc", .object [("line", .ofNat 1), ("column", .ofNat 3)]), ("note", .null)]]),
        ("attributes", .array [])]) :=
  ⟨sparse_proper, _, rfl, (toJson_decode_same_normal sparse sparse_proper).2.1 _ rfl⟩

end TemplateLint.Schema
