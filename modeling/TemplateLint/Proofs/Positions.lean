import Mathlib
import TemplateLint.Proofs.Decoding

/-! # What is read at a position

`Decoded` says what is read at a position, one level deep and in the terms of the schema alone;
`decode_iff` says that this is what decoding gives.
-/

namespace TemplateLint.Schema

open Json

variable {shape : Shape} {kind : Kind} {members : Members} {value : Json} {piece : Piece}

/-! ## Locations -/

/-- A value that gives a line and a column. -/
inductive Locates : Json → Location → Prop where
  | pair (line column : Nat) : Locates (.array [.ofNat line, .ofNat column]) ⟨line, column⟩
  | record {members : Members} {line column : Nat}
      (lineGiven : members.get? "line" = some (.ofNat line))
      (columnGiven : members.get? "column" = some (.ofNat column)) :
      Locates (.object members) ⟨line, column⟩

theorem decodeIndex_eq_ok_iff {n : Nat} : value.decodeIndex = .ok n ↔ value = .ofNat n := by
  constructor
  · intro decoded
    unfold decodeIndex indexOf at decoded
    split at decoded
    · split at decoded
      · split_ifs at decoded with nonneg
        obtain rfl := Except.ok.inj decoded
        rw [ofNat, Int.toNat_of_nonneg nonneg]
      · cases decoded
    · cases decoded
  · rintro rfl
    simp [ofNat, decodeIndex, indexOf]

/-- What a field of a location is after a value that may stand for it. -/
def IndexAfter (input : Option Json) (before after : Option Nat) : Prop :=
  match input with
  | none => after = before
  | some value => ∃ n, value = .ofNat n ∧ after = some n

theorem indexAfter_none {input : Option Json} {n : Nat} :
    IndexAfter input none (some n) ↔ input = some (.ofNat n) := by
  cases input with
  | none => simp [IndexAfter]
  | some value => simp [IndexAfter]

theorem gather_location_iff {draft final : Location.Draft}
    (distinct : (members.map Prod.fst).Nodup) :
    gather Location.Draft.add draft members = .ok final ↔
      IndexAfter (members.get? "line") draft.line final.line ∧
        IndexAfter (members.get? "column") draft.column final.column := by
  induction members generalizing draft with
  | nil =>
    rcases draft with ⟨line, column⟩
    rcases final with ⟨line', column'⟩
    simp only [gather, List.foldlM_nil, IndexAfter, Members.get?_nil]
    constructor
    · intro same
      cases same
      exact ⟨rfl, rfl⟩
    · rintro ⟨rfl, rfl⟩
      rfl
  | cons member rest ih =>
    rcases member with ⟨key, value⟩
    rw [List.map_cons, List.nodup_cons] at distinct
    have absent : Members.get? rest key = none := Members.get?_eq_none_iff.mpr distinct.1
    rw [Drafting.gather_cons, bind_eq_ok_iff, Location.Draft.add.eq_def]
    simp only [Members.get?_cons]
    split
    · rw [if_pos rfl, if_neg (by decide)]
      constructor
      · rintro ⟨next, added, later⟩
        obtain ⟨n, index, built⟩ := bind_eq_ok_iff.mp added
        obtain rfl := Except.ok.inj built
        obtain ⟨line, column⟩ := (ih distinct.2).mp later
        rw [absent] at line
        exact ⟨⟨n, decodeIndex_eq_ok_iff.mp index, line⟩, column⟩
      · rintro ⟨⟨n, index, line⟩, column⟩
        refine ⟨_, bind_eq_ok_iff.mpr ⟨n, decodeIndex_eq_ok_iff.mpr index, rfl⟩, ?_⟩
        rw [ih distinct.2, absent]
        exact ⟨line, column⟩
    · rw [if_neg (by decide), if_pos rfl]
      constructor
      · rintro ⟨next, added, later⟩
        obtain ⟨n, index, built⟩ := bind_eq_ok_iff.mp added
        obtain rfl := Except.ok.inj built
        obtain ⟨line, column⟩ := (ih distinct.2).mp later
        rw [absent] at column
        exact ⟨line, n, decodeIndex_eq_ok_iff.mp index, column⟩
      · rintro ⟨line, n, index, column⟩
        refine ⟨_, bind_eq_ok_iff.mpr ⟨n, decodeIndex_eq_ok_iff.mpr index, rfl⟩, ?_⟩
        rw [ih distinct.2, absent]
        exact ⟨line, column⟩
    · next noLine noColumn =>
      rw [if_neg (Ne.symm noLine), if_neg (Ne.symm noColumn)]
      exact ⟨fun ⟨next, added, later⟩ => (ih distinct.2).mp (Except.ok.inj added ▸ later),
        fun after => ⟨draft, rfl, (ih distinct.2).mpr after⟩⟩

theorem decode_location_iff_locates (proper : value.Proper) (place : Location) :
    Location.decode .fewerInArray value = .ok place ↔ Locates value place := by
  cases value with
  | array items =>
    rcases items with _ | ⟨line, _ | ⟨column, _ | ⟨next, rest⟩⟩⟩
    · constructor <;> rintro ⟨⟩
    · constructor
      · intro decoded
        simp [Location.decode, bind_eq_ok_iff] at decoded
      · rintro ⟨⟩
    · simp only [Location.decode, bind_eq_ok_iff, decodeIndex_eq_ok_iff]
      constructor
      · rintro ⟨line, rfl, column, rfl, built⟩
        obtain rfl := Except.ok.inj built
        exact .pair line column
      · rintro ⟨⟩
        exact ⟨_, rfl, _, rfl, rfl⟩
    · constructor
      · intro decoded
        simp [Location.decode, bind_eq_ok_iff] at decoded
      · rintro ⟨⟩
  | object members =>
    simp only [Location.decode, bind_eq_ok_iff, gather_location_iff proper.distinct, Location.Draft.finish, required_eq_ok_iff]
    constructor
    · rintro ⟨draft, ⟨line, column⟩, l, hl, c, hc, built⟩
      obtain rfl := Except.ok.inj built
      rw [hl, indexAfter_none] at line
      rw [hc, indexAfter_none] at column
      exact .record line column
    · rintro ⟨⟩
      rename_i l c hl hc
      refine ⟨⟨some l, some c⟩, ⟨indexAfter_none.mpr hl, indexAfter_none.mpr hc⟩, l, rfl, c, rfl, rfl⟩
  | _ => constructor <;> rintro ⟨⟩

/-! ## Records -/

/-- A record of a kind is decoded at a position lawfully, from its members without its tag. -/
def DecodesAs (shape : Shape) (kind : Kind) (members : Members) : Prop :=
  ∃ decode, kind.Lawful decode ∧ ∀ piece, shape.decode (.object members) = .ok piece ↔
    (decode (members.filter fun member => member.1 ∉ kind.tagMember.map Prod.fst)).map .entity =
      .ok piece

section Views

variable {α β : Type}

theorem DecodesAs.of_untagged {decode : Json → Except DecodeError α} {make : α → Entity}
    (lawful : kind.Lawful fun members => (decode (.object members)).map make)
    (untagged : kind.tag? = none)
    (decodes : ∀ value, shape.decode value = (decode value).map fun item => .entity (make item)) :
    DecodesAs shape kind members := by
  refine ⟨_, lawful, fun piece => ?_⟩
  have whole : (members.filter fun member => member.1 ∉ kind.tagMember.map Prod.fst) = members := by
    simp [Kind.tagMember, untagged]
  rw [whole, decodes]
  cases decode (.object members) <;> exact Iff.rfl

theorem DecodesAs.of_tagged {decode : Members → Except DecodeError Entity} {tag : String}
    (lawful : kind.Lawful decode) (tagged : kind.tag? = some tag)
    (decodes : ∀ piece, shape.decode (.object members) = .ok piece ↔
      (decode (members.erase "type")).map .entity = .ok piece) :
    DecodesAs shape kind members := by
  refine ⟨decode, lawful, fun piece => ?_⟩
  have rest : (members.filter fun member => member.1 ∉ kind.tagMember.map Prod.fst) =
      members.erase "type" := by
    simp [Kind.tagMember, tagged, Members.erase]
  rw [rest, decodes]

/-- The tag that an error is marked with does not matter for what is decoded. -/
theorem map_within_iff {result : Except DecodeError α} {entity : Except DecodeError Entity}
    {view : α → Piece} (viewed : ∀ piece, result.map view = .ok piece ↔ entity.map .entity = .ok piece)
    (tag : String) (piece : Piece) :
    (within tag result).map view = .ok piece ↔ entity.map .entity = .ok piece := by
  rw [← viewed, map_eq_ok_iff, map_eq_ok_iff, within]
  exact exists_congr fun _ => and_congr_left fun _ => mapError_eq_ok_iff

theorem map_view_iff {result : Except DecodeError α} (wrap : α → β) (view : β → Piece)
    (make : α → Entity) (viewed : ∀ item, view (wrap item) = .entity (make item)) (piece : Piece) :
    (do return wrap (← result) : Except DecodeError β).map view = .ok piece ↔
      (result.map make).map .entity = .ok piece := by
  cases result with
  | error => exact Iff.rfl
  | ok item =>
    change Except.ok (view (wrap item)) = _ ↔ Except.ok (Piece.entity (make item)) = _
    rw [viewed]

end Views

theorem kind?_tagged_eq_some {kinds : List Kind} {isOpen : Bool}
    (known : (Layout.tagged kinds isOpen).kind? value = some kind) :
    kind ∈ kinds ∧ value.tag? = kind.tag? := by
  obtain ⟨tag, tagged, found⟩ := Option.bind_eq_some_iff.mp known
  have same : kind.tag? = some tag := by simpa using List.find?_some found
  exact ⟨List.mem_of_find?_eq_some found, by rw [tagged, same]⟩

theorem decodesAs_node (known : Shape.node.layout.kind? (.object members) = some kind) :
    DecodesAs .node kind members := by
  obtain ⟨among, tagged⟩ := kind?_tagged_eq_some known
  simp only [List.mem_cons, List.not_mem_nil, or_false] at among
  rcases among with rfl | rfl | rfl | rfl
  · refine .of_tagged (Kind.lawful_text .fewerInArray) rfl fun piece => ?_
    rw [Shape.decode, Node.decode, tagged]
    exact map_within_iff (map_view_iff .text .ofNode .text fun _ => rfl) _ piece
  · refine .of_tagged Kind.lawful_element rfl fun piece => ?_
    rw [Shape.decode, Node.decode, tagged]
    refine map_within_iff (fun piece => ?_) _ piece
    rw [decodeElement_eq_gather, Kind.decodeElement]
    cases gather addToElement {} (members.erase "type") with
    | error => exact Iff.rfl
    | ok draft => rcases draft with ⟨_ | _, _, _, _, _⟩ <;> exact Iff.rfl
  · refine .of_tagged (Kind.lawful_mustache .fewerInArray) rfl fun piece => ?_
    rw [Shape.decode, Node.decode, tagged]
    exact map_within_iff (map_view_iff .mustache .ofNode .mustache fun _ => rfl) _ piece
  · refine .of_tagged Kind.lawful_block rfl fun piece => ?_
    rw [Shape.decode, Node.decode, tagged]
    refine map_within_iff (fun piece => ?_) _ piece
    rw [decodeBlock_eq_gather, Kind.decodeBlock]
    cases gather addToBlock {} (members.erase "type") with
    | error => exact Iff.rfl
    | ok draft => rcases draft with ⟨_ | _, _ | _, _, _, _⟩ <;> exact Iff.rfl

theorem decodesAs_attributeValue
    (known : Shape.attributeValue.layout.kind? (.object members) = some kind) :
    DecodesAs .attributeValue kind members := by
  obtain ⟨among, tagged⟩ := kind?_tagged_eq_some known
  simp only [List.mem_cons, List.not_mem_nil, or_false] at among
  rcases among with rfl | rfl | rfl
  · refine .of_tagged (Kind.lawful_text .fewerInArray) rfl fun piece => ?_
    rw [Shape.decode, AttributeValue.decode.eq_def, tagged]
    exact map_within_iff (map_view_iff .text .ofValue .text fun _ => rfl) _ piece
  · refine .of_tagged (Kind.lawful_mustache .fewerInArray) rfl fun piece => ?_
    rw [Shape.decode, AttributeValue.decode.eq_def, tagged]
    exact map_within_iff (map_view_iff .mustache .ofValue .mustache fun _ => rfl) _ piece
  · refine .of_tagged Kind.lawful_concat rfl fun piece => ?_
    rw [Shape.decode, AttributeValue.decode.eq_def, tagged]
    exact map_within_iff (map_view_iff .concat .ofValue .concat fun _ => rfl) _ piece

theorem get?_type_of_tag? {tag : String} (tagged : (object members).tag? = some tag) :
    members.get? "type" = some (.string tag) := by
  obtain ⟨value, present, text⟩ := Option.bind_eq_some_iff.mp tagged
  cases value with
  | string found =>
    obtain rfl : found = tag := Option.some.inj text
    exact present
  | _ => cases text

theorem decodesAs_part (known : Shape.part.layout.kind? (.object members) = some kind) :
    DecodesAs .part kind members := by
  obtain ⟨among, tagged⟩ := kind?_tagged_eq_some known
  simp only [List.mem_cons, List.not_mem_nil, or_false] at among
  rcases among with rfl | rfl
  · refine .of_tagged (Kind.lawful_text (.inSequence 2)) rfl fun piece => ?_
    rw [Shape.decode, Part.decode, get?_type_of_tag? tagged]
    exact map_view_iff .text .ofPart .text (fun _ => rfl) piece
  · refine .of_tagged (Kind.lawful_mustache (.inSequence 2)) rfl fun piece => ?_
    rw [Shape.decode, Part.decode, get?_type_of_tag? tagged]
    exact map_view_iff .mustache .ofPart .mustache (fun _ => rfl) piece

theorem decodesAs_expression (known : Shape.expression.layout.kind? (.object members) = some kind) :
    DecodesAs .expression kind members := by
  obtain ⟨among, tagged⟩ := kind?_tagged_eq_some known
  simp only [List.mem_cons, List.not_mem_nil, or_false] at among
  rcases among with rfl | rfl
  · refine .of_tagged Kind.lawful_literal rfl fun piece => ?_
    rw [Shape.decode, Expression.decode.eq_def, tagged]
    exact map_within_iff (map_view_iff .literal .ofExpression .literal fun _ => rfl) _ piece
  · refine .of_tagged Kind.lawful_path rfl fun piece => ?_
    rw [Shape.decode, Expression.decode.eq_def, tagged]
    exact map_within_iff (map_view_iff .path .ofExpression .path fun _ => rfl) _ piece

theorem decodesAs (known : shape.layout.kind? (.object members) = some kind) :
    DecodesAs shape kind members := by
  cases shape with
  | text => cases known
  | location => cases known
  | nodes => cases known
  | attributes => cases known
  | parts => cases known
  | template =>
    obtain rfl : Kind.template = kind := Option.some.inj known
    exact .of_untagged Kind.lawful_template rfl fun _ => rfl
  | branch =>
    obtain rfl : Kind.branch = kind := Option.some.inj known
    exact .of_untagged Kind.lawful_branch rfl fun _ => rfl
  | attr =>
    obtain rfl : Kind.attr = kind := Option.some.inj known
    exact .of_untagged Kind.lawful_attr rfl fun _ => rfl
  | node => exact decodesAs_node known
  | attributeValue => exact decodesAs_attributeValue known
  | part => exact decodesAs_part known
  | expression => exact decodesAs_expression known

/-- A record at its position has the tag of its kind. -/
theorem get?_of_known (known : shape.layout.kind? (.object members) = some kind) {key : String}
    (tags : key ∈ kind.tagMember.map Prod.fst) :
    members.get? key = kind.tagMember.get? key := by
  cases layout : shape.layout with
  | record fixed =>
    obtain rfl : fixed = kind := by simpa [layout, Layout.kind?] using known
    cases shape with
    | template => cases layout; cases tags
    | branch => cases layout; cases tags
    | attr => cases layout; cases tags
    | _ => cases layout
  | tagged kinds isOpen =>
    obtain ⟨_, tagged⟩ := kind?_tagged_eq_some (layout ▸ known)
    cases tag : kind.tag? with
    | none => simp [Kind.tagMember, tag] at tags
    | some name =>
      obtain rfl : key = "type" := by simpa [Kind.tagMember, tag] using tags
      rw [get?_type_of_tag? (tagged.trans tag), Kind.tagMember, tag]
      rfl
  | _ => simp [layout, Layout.kind?] at known

/-! ## Unknown values and lists -/

theorem kind?_of_tag? {tag : String} {kinds : List Kind} {isOpen : Bool}
    (layout : shape.layout = .tagged kinds isOpen) (tagged : value.tag? = some tag) :
    shape.layout.kind? value = kinds.find? fun kind => kind.tag? == some tag := by
  rw [layout, Layout.kind?, tagged, Option.bind_some]

theorem decode_unknown (isOpen : shape.layout.isOpen = true)
    (unknown : shape.layout.kind? value = none) : shape.decode value = .ok (.other value) := by
  have untagged {tag : String} {kinds : List Kind} (layout : shape.layout = .tagged kinds true)
      (tagged : value.tag? = some tag) : kinds.find? (fun kind => kind.tag? == some tag) = none :=
    (kind?_of_tag? layout tagged).symm.trans unknown
  cases shape with
  | node =>
    rw [Shape.decode, Node.decode.eq_def]
    split
    · split
      · next tagged => cases untagged rfl tagged
      · next tagged => cases untagged rfl tagged
      · next tagged => cases untagged rfl tagged
      · next tagged => cases untagged rfl tagged
      · rfl
    · rfl
  | attributeValue =>
    rw [Shape.decode, AttributeValue.decode.eq_def]
    split
    · next tagged => cases untagged rfl tagged
    · next tagged => cases untagged rfl tagged
    · next tagged => cases untagged rfl tagged
    · rfl
  | expression =>
    rw [Shape.decode, Expression.decode.eq_def]
    split
    · next tagged => cases untagged rfl tagged
    · next tagged => cases untagged rfl tagged
    · rfl
  | _ => cases isOpen

/-- Only records with a tag stand at a position that calls for a tag. -/
theorem object_of_kind? {kinds : List Kind} {isOpen : Bool}
    (known : (Layout.tagged kinds isOpen).kind? value = some kind) :
    ∃ members, value = .object members := by
  obtain ⟨tag, tagged, _⟩ := Option.bind_eq_some_iff.mp known
  cases value with
  | object members => exact ⟨members, rfl⟩
  | _ => cases tagged

theorem kind?_of_decode_part {part : Part} (decoded : Part.decode value = .ok part) :
    ∃ kind, Shape.part.layout.kind? value = some kind := by
  cases value with
  | object members =>
    obtain ⟨given, present, rest⟩ := bind_eq_ok_iff.mp decoded
    obtain ⟨tag, tagged, _⟩ := bind_eq_ok_iff.mp rest
    rw [required_eq_ok_iff] at present
    cases given with
    | string text =>
      rw [Part.decodeTag] at tagged
      split_ifs at tagged with among
      have found : (object members).tag? = some text := by
        rw [tag?, Json.get?, present, Option.bind_some, string?]
      rw [kind?_of_tag? rfl found]
      simp only [Part.tags, List.mem_cons, List.not_mem_nil, or_false] at among
      rcases among with rfl | rfl
      · exact ⟨.text, rfl⟩
      · exact ⟨.mustache, rfl⟩
    | _ => cases tagged
  | array items =>
    rcases items with _ | ⟨tag, rest⟩
    · cases decoded
    · obtain ⟨_, _, refused⟩ := bind_eq_ok_iff.mp decoded
      cases refused
  | _ => cases decoded

theorem object_of_decode (layout : shape.layout = .record kind)
    (decoded : shape.decode value = .ok piece) : ∃ members, value = .object members := by
  cases value with
  | object members => exact ⟨members, rfl⟩
  | _ =>
    cases shape with
    | template => cases decoded
    | branch =>
      rw [Shape.decode, Block.decode] at decoded
      · cases decoded
      · intro _ same
        cases same
    | attr => cases decoded
    | _ => cases layout

theorem open_of_decode {kinds : List Kind} {isOpen : Bool}
    (layout : shape.layout = .tagged kinds isOpen) (decoded : shape.decode value = .ok piece)
    (unknown : shape.layout.kind? value = none) : shape.layout.isOpen = true := by
  cases shape with
  | node => rfl
  | attributeValue => rfl
  | expression => rfl
  | part =>
    obtain ⟨part, decoded, _⟩ := map_eq_ok_iff.mp decoded
    obtain ⟨kind, known⟩ := kind?_of_decode_part decoded
    exact absurd (known.symm.trans unknown) nofun
  | _ => cases layout

/-! ## Lists -/

theorem decodeItems_eq_mapM (values : List Json) :
    Node.decodeItems values = values.mapM Node.decode := by
  induction values with
  | nil => rw [Node.decodeItems]; rfl
  | cons value rest ih => rw [Node.decodeItems, ih, List.mapM_cons]

/-- The items of a list are decoded each on its own. -/
theorem map_mapM_iff {α : Type} {decode : Json → Except DecodeError α} {view : α → Piece}
    {item : Shape} (decodes : ∀ value, item.decode value = (decode value).map view)
    {values : List Json} :
    (values.mapM decode).map (.ofList view) = .ok piece ↔ ∃ pieces, piece = .list pieces ∧
      List.Forall₂ (fun value piece => item.decode value = .ok piece) values pieces := by
  rw [map_eq_ok_iff]
  constructor
  · rintro ⟨items, decoded, rfl⟩
    refine ⟨items.map view, rfl, List.forall₂_map_right_iff.mpr ?_⟩
    refine (mapM_eq_ok_iff.mp decoded).imp fun value item decoded => ?_
    rw [decodes, decoded]
    rfl
  · rintro ⟨pieces, rfl, each⟩
    have back : ∃ items, items.map view = pieces ∧
        List.Forall₂ (fun value item => decode value = .ok item) values items := by
      induction each with
      | nil => exact ⟨[], rfl, .nil⟩
      | cons here _ ih =>
        rw [decodes, map_eq_ok_iff] at here
        obtain ⟨first, decoded, rfl⟩ := here
        obtain ⟨items, rfl, rest⟩ := ih
        exact ⟨first :: items, rfl, .cons decoded rest⟩
    obtain ⟨items, rfl, decoded⟩ := back
    exact ⟨items, mapM_eq_ok_iff.mpr decoded, rfl⟩

theorem decode_list_iff {item : Shape} (layout : shape.layout = .list item) :
    shape.decode value = .ok piece ↔ ∃ values, value = .array values ∧ ∃ pieces,
      piece = .list pieces ∧
        List.Forall₂ (fun value piece => item.decode value = .ok piece) values pieces := by
  cases value with
  | array values =>
    have each : (∃ others, Json.array values = .array others ∧ ∃ pieces, piece = .list pieces ∧
        List.Forall₂ (fun value piece => item.decode value = .ok piece) others pieces) ↔
      ∃ pieces, piece = .list pieces ∧
        List.Forall₂ (fun value piece => item.decode value = .ok piece) values pieces := by
      simp
    rw [each]
    cases shape with
    | nodes =>
      cases layout
      rw [Shape.decode, Node.decodeNodes, decodeItems_eq_mapM]
      exact map_mapM_iff fun _ => rfl
    | attributes =>
      cases layout
      exact map_mapM_iff fun _ => rfl
    | parts =>
      cases layout
      exact map_mapM_iff fun _ => rfl
    | _ => cases layout
  | _ =>
    cases shape with
    | nodes =>
      cases layout
      rw [Shape.decode, Node.decodeNodes.eq_def]
      exact ⟨nofun, nofun⟩
    | attributes => exact ⟨nofun, nofun⟩
    | parts => exact ⟨nofun, nofun⟩
    | _ => cases layout

/-! ## All positions -/

/-- What is read at a position, one level deep. -/
inductive Decoded (shape : Shape) : Json → Piece → Prop where
  | text (layout : shape.layout = .text) (text : String) : Decoded shape (.string text) (.text text)
  | location (layout : shape.layout = .location) {value : Json} {place : Location}
      (locates : Locates value place) : Decoded shape value (.location place)
  | list {item : Shape} (layout : shape.layout = .list item) {values : List Json}
      {pieces : List Piece}
      (each : List.Forall₂ (fun value piece => item.decode value = .ok piece) values pieces) :
      Decoded shape (.array values) (.list pieces)
  | entity {members : Members} {entity : Entity}
      (known : shape.layout.kind? (.object members) = some entity.kind)
      (reads : ∀ field ∈ entity.kind.fields,
        field.Reads (members.get? field.name) (entity.member? field.name))
      (extra : entity.extra = members.filter fun member => member.1 ∉ entity.kind.keys) :
      Decoded shape (.object members) (.entity entity)
  | other {value : Json} (isOpen : shape.layout.isOpen = true)
      (unknown : shape.layout.kind? value = none) : Decoded shape value (.other value)

theorem get?_untagged (members : Members) {name : String} (declared : name ∈ kind.names) :
    Members.get? (members.filter fun member => member.1 ∉ kind.tagMember.map Prod.fst) name =
      members.get? name := by
  have untagged : name ∉ kind.tagMember.map Prod.fst := fun tags =>
    List.disjoint_of_nodup_append kind.nodup_keys tags declared
  rw [Members.get?_filter fun key => key ∉ kind.tagMember.map Prod.fst]
  exact if_pos (by simpa using untagged)

theorem distinct_filter {keep : String × Json → Bool} (distinct : (members.map Prod.fst).Nodup) :
    ((members.filter keep).map Prod.fst).Nodup :=
  (List.filter_sublist.map Prod.fst).nodup distinct

/-- A record is read if each of its members can be read. -/
theorem exists_entity (distinct : (members.map Prod.fst).Nodup)
    (known : shape.layout.kind? (.object members) = some kind)
    (readable : ∀ field ∈ kind.fields, ∃ piece, field.Reads (members.get? field.name) piece) :
    ∃ entity, shape.decode (.object members) = .ok (.entity entity) := by
  obtain ⟨decode, lawful, decodes⟩ := decodesAs known
  obtain ⟨entity, decoded⟩ := lawful.accepts (distinct_filter distinct) fun field among =>
    get?_untagged members (List.mem_map_of_mem among) ▸ readable field among
  exact ⟨entity, (decodes _).mpr (by rw [decoded]; rfl)⟩

theorem decoded_entity (distinct : (members.map Prod.fst).Nodup)
    (known : shape.layout.kind? (.object members) = some kind)
    (decoded : shape.decode (.object members) = .ok piece) :
    Decoded shape (.object members) piece := by
  obtain ⟨decode, lawful, decodes⟩ := decodesAs known
  obtain ⟨entity, built, rfl⟩ := map_eq_ok_iff.mp ((decodes piece).mp decoded)
  obtain ⟨rfl, reads, extra⟩ := lawful.reads (distinct_filter distinct) built
  refine .entity known (fun field among => ?_) ?_
  · rw [← get?_untagged members (List.mem_map_of_mem among)]
    exact reads field among
  · rw [extra, List.filter_filter, Kind.keys]
    refine List.filter_congr fun member _ => ?_
    rw [Bool.eq_iff_iff]
    simp [List.mem_append, not_or, and_comm]

theorem decode_iff (proper : value.Proper) :
    shape.decode value = .ok piece ↔ Decoded shape value piece := by
  constructor
  · intro decoded
    cases layout : shape.layout with
    | text =>
      cases shape with
      | text =>
        cases value with
        | string text =>
          obtain rfl := Except.ok.inj decoded
          exact .text rfl text
        | _ => cases decoded
      | _ => cases layout
    | location =>
      cases shape with
      | location =>
        obtain ⟨place, built, rfl⟩ := map_eq_ok_iff.mp decoded
        exact .location rfl ((decode_location_iff_locates proper place).mp built)
      | _ => cases layout
    | list item =>
      obtain ⟨values, rfl, pieces, rfl, each⟩ := (decode_list_iff layout).mp decoded
      exact .list layout each
    | record kind =>
      obtain ⟨members, rfl⟩ := object_of_decode layout decoded
      exact decoded_entity proper.distinct (by rw [layout]; rfl) decoded
    | tagged kinds isOpen =>
      cases known : shape.layout.kind? value with
      | some kind =>
        obtain ⟨members, rfl⟩ := object_of_kind? (layout ▸ known)
        exact decoded_entity proper.distinct known decoded
      | none =>
        have isOpen := open_of_decode layout decoded known
        obtain rfl := Except.ok.inj (decoded.symm.trans (decode_unknown isOpen known))
        exact .other isOpen known
  · intro decoded
    cases decoded with
    | text layout text =>
      cases shape with
      | text => rfl
      | _ => cases layout
    | location layout locates =>
      cases shape with
      | location =>
        exact map_eq_ok_iff.mpr ⟨_, (decode_location_iff_locates proper _).mpr locates, rfl⟩
      | _ => cases layout
    | list layout each => exact (decode_list_iff layout).mpr ⟨_, rfl, _, rfl, each⟩
    | entity known reads extra =>
      obtain ⟨found, decoded⟩ := exists_entity proper.distinct known fun field among =>
        ⟨_, reads field among⟩
      cases decoded_entity proper.distinct known decoded with
      | entity known' reads' extra' =>
        have same := Option.some.inj (known'.symm.trans known)
        rw [decoded, Entity.eq_of_members same (fun field among =>
          (reads' field among).unique (reads field (same ▸ among))) (by rw [extra', extra, same])]
    | other isOpen unknown => exact decode_unknown isOpen unknown

/-! ## Inputs -/

/-- A value that stands at a position. -/
structure Input where
  shape : Shape
  value : Json

namespace Input

/-- What is read for a member that stands for a field, if anything is. -/
def ofField (field : Field) : Option Json → Option Input
  | none => if field.need = .listed then some ⟨field.shape, .array []⟩ else none
  | some .null => if field.need = .optional then none else some ⟨field.shape, .null⟩
  | some value => some ⟨field.shape, value⟩

theorem ofField_of_given {field : Field} {value : Json}
    (given : ¬ (field.need = .optional ∧ value = .null)) :
    ofField field (some value) = some ⟨field.shape, value⟩ := by
  cases value with
  | null => exact if_neg fun optional => given ⟨optional, rfl⟩
  | _ => rfl

/-- A piece is what was decoded from an input. -/
def Gives (input : Input) (piece : Piece) : Prop :=
  input.value.Proper ∧ input.shape.decode input.value = .ok piece

theorem gives_field {field : Field} {given : Option Json} {output : Option Piece}
    (reads : field.Reads given output)
    (proper : ∀ value, given = some value → value.Proper)
    (lists : field.need = .listed → ∃ item, field.shape.layout = .list item) :
    Option.Rel Gives (ofField field given) output := by
  cases reads with
  | absent needless =>
    rw [ofField, Field.default?]
    split_ifs with listed
    · obtain ⟨item, layout⟩ := lists listed
      exact .some ⟨.array (List.forall_mem_nil _), (decode_list_iff layout).mpr ⟨[], rfl, [], rfl, .nil⟩⟩
    · exact .none
  | null optional =>
    rw [ofField, if_pos optional]
    exact .none
  | @value value piece stands decoded =>
    rw [ofField_of_given stands]
    exact .some ⟨proper value rfl, decoded⟩

end Input

end TemplateLint.Schema
