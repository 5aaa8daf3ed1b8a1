import Mathlib
import TemplateLint.Proofs.Positions

/-! # Decoding accepts exactly the well-formed values

A template is decoded if and only if its nodes are well-formed, all the way down. A value with a
known tag is never taken for an unknown one: walking down a template and down the value it was
decoded from side by side, an unknown piece is met exactly where the value has no known tag.
-/

namespace TemplateLint.Schema

open Json

variable {shape : Shape} {value : Json} {piece : Piece}

/-! ## Acceptance -/

theorem isIndex_iff (proper : value.Proper) : IsIndex value ↔ ∃ n, value = .ofNat n := by
  constructor
  · rintro ⟨n, _, rfl⟩
    exact ⟨n, rfl⟩
  · rintro ⟨n, rfl⟩
    cases proper with
    | integer _ high => exact ⟨n, by exact_mod_cast high, rfl⟩

theorem isLocation_iff (proper : value.Proper) : IsLocation value ↔ ∃ place, Locates value place := by
  constructor
  · intro location
    cases location with
    | pair lineIndex columnIndex =>
      obtain ⟨line, _, rfl⟩ := lineIndex
      obtain ⟨column, _, rfl⟩ := columnIndex
      exact ⟨_, .pair line column⟩
    | record lineGiven lineIndex columnGiven columnIndex =>
      obtain ⟨line, _, rfl⟩ := lineIndex
      obtain ⟨column, _, rfl⟩ := columnIndex
      exact ⟨_, .record lineGiven columnGiven⟩
  · rintro ⟨place, locates⟩
    cases locates with
    | pair line column =>
      have index (n : Nat) (among : Json.ofNat n ∈ [Json.ofNat line, .ofNat column]) :
          IsIndex (.ofNat n) :=
        (isIndex_iff (proper.of_mem_children among)).mpr ⟨n, rfl⟩
      exact .pair (index line (by simp)) (index column (by simp))
    | record lineGiven columnGiven =>
      exact .record lineGiven ((isIndex_iff (proper.of_get? lineGiven)).mpr ⟨_, rfl⟩)
        columnGiven ((isIndex_iff (proper.of_get? columnGiven)).mpr ⟨_, rfl⟩)

/-- A member can be read if it is there when it must be and its value can be read. -/
theorem Field.exists_reads_iff {field : Field} {input : Option Json} :
    (∃ output, field.Reads input output) ↔
      (field.need = .required → ∃ value, input = some value) ∧
        ∀ value, input = some value → ¬ (field.need = .optional ∧ value = .null) →
          ∃ piece, field.shape.decode value = .ok piece := by
  constructor
  · rintro ⟨output, reads⟩
    cases reads with
    | absent needless => exact ⟨fun needed => absurd needed needless, nofun⟩
    | null optional =>
      refine ⟨fun _ => ⟨_, rfl⟩, fun value same given => ?_⟩
      obtain rfl := Option.some.inj same
      exact absurd ⟨optional, rfl⟩ given
    | value _ decoded =>
      refine ⟨fun _ => ⟨_, rfl⟩, fun value same _ => ?_⟩
      obtain rfl := Option.some.inj same
      exact ⟨_, decoded⟩
  · rintro ⟨present, each⟩
    cases input with
    | none => exact ⟨_, .absent fun needed => nomatch present needed⟩
    | some value =>
      by_cases null : field.need = .optional ∧ value = .null
      · obtain ⟨optional, rfl⟩ := null
        exact ⟨none, .null optional⟩
      · obtain ⟨piece, decoded⟩ := each value rfl null
        exact ⟨some piece, .value null decoded⟩

theorem exists_forall₂ {values : List Json}
    (each : ∀ value ∈ values, ∃ piece, shape.decode value = .ok piece) :
    ∃ pieces, List.Forall₂ (fun value piece => shape.decode value = .ok piece) values pieces := by
  induction values with
  | nil => exact ⟨[], .nil⟩
  | cons value rest ih =>
    obtain ⟨piece, decoded⟩ := each value (List.mem_cons_self ..)
    obtain ⟨pieces, later⟩ := ih fun other among => each other (List.mem_cons_of_mem _ among)
    exact ⟨piece :: pieces, .cons decoded later⟩

/-- What can be decoded at a position is what is well-formed there. -/
theorem exists_decode_iff (proper : value.Proper) :
    (∃ piece, shape.decode value = .ok piece) ↔ WellFormed shape value := by
  induction value using Json.induction generalizing shape with
  | step value ih =>
    have below {child : Json} (among : child ∈ value.children) (shape : Shape) :
        (∃ piece, shape.decode child = .ok piece) ↔ WellFormed shape child :=
      ih child among (proper.of_mem_children among)
    constructor
    · rintro ⟨piece, decoded⟩
      cases (decode_iff proper).mp decoded with
      | text layout text => exact .text layout text
      | location layout locates => exact .location layout ((isLocation_iff proper).mpr ⟨_, locates⟩)
      | list layout each =>
        refine .list layout fun child among => (below among _).mp ?_
        obtain ⟨i, bound, rfl⟩ := List.getElem_of_mem among
        exact ⟨_, each.get bound (each.length_eq ▸ bound)⟩
      | entity known reads =>
        have readable (field : Field) (among : field ∈ _) :=
          Field.exists_reads_iff.mp ⟨_, reads field among⟩
        refine .record known (fun field among => (readable field among).1) ?_
        intro field among child present given
        have decodable := (readable field among).2 child present given
        exact (below (mem_children_of_get? present) _).mp decodable
      | other isOpen unknown => exact .unknown isOpen unknown
    · intro wellFormed
      cases wellFormed with
      | text layout text => exact ⟨_, (decode_iff proper).mpr (.text layout text)⟩
      | location layout location =>
        obtain ⟨place, locates⟩ := (isLocation_iff proper).mp location
        exact ⟨_, (decode_iff proper).mpr (.location layout locates)⟩
      | list layout each =>
        obtain ⟨pieces, decoded⟩ := exists_forall₂ fun child among =>
          (below among _).mpr (each child among)
        exact ⟨_, (decode_iff proper).mpr (.list layout decoded)⟩
      | record known present each =>
        obtain ⟨entity, decoded⟩ := exists_entity proper.distinct known fun field among =>
          Field.exists_reads_iff.mpr ⟨present field among, fun child given needed =>
            (below (mem_children_of_get? given) _).mpr (each field among child given needed)⟩
        exact ⟨_, decoded⟩
      | unknown isOpen unknown => exact ⟨_, decode_unknown isOpen unknown⟩

/-! ## Walks -/

/-- A step down from a position: to a member or to an item. -/
inductive Hop where
  | member (name : String)
  | item (index : Nat)
deriving DecidableEq, Repr

/-- The piece one step down. -/
def Piece.hop : Piece → Hop → Option Piece
  | .entity record, .member name => record.member? name
  | .list items, .item index => items[index]?
  | _, _ => none

/-- The piece at the end of a walk. -/
def Piece.walk (piece : Piece) (path : List Hop) : Option Piece :=
  path.foldlM Piece.hop piece

namespace Input

/-- What stands one step down. A list that was left out stands there as an empty one. -/
def hop (input : Input) : Hop → Option Input
  | .member name =>
    (input.shape.layout.kind? input.value).bind fun kind =>
      (kind.field? name).bind fun field => ofField field (input.value.get? name)
  | .item index =>
    match input.shape.layout, input.value with
    | .list shape, .array values => values[index]?.map fun value => ⟨shape, value⟩
    | _, _ => none

/-- What stands at the end of a walk. -/
def walk (input : Input) (path : List Hop) : Option Input :=
  path.foldlM hop input

/-- What stands at a position has no known tag there. -/
def IsUnknown (input : Input) : Prop :=
  input.shape.layout.isOpen = true ∧ input.shape.layout.kind? input.value = none

/-- One step down on both sides. -/
theorem Gives.hop {input : Input} (gives : input.Gives piece) (hop : Hop) :
    Option.Rel Gives (input.hop hop) (piece.hop hop) := by
  rcases input with ⟨shape, value⟩
  obtain ⟨proper, decoded⟩ := gives
  cases (decode_iff proper).mp decoded with
  | text layout text =>
    cases hop <;> simp [Input.hop, Piece.hop, layout, Layout.kind?]
  | location layout locates =>
    cases hop <;> simp [Input.hop, Piece.hop, layout, Layout.kind?]
  | @list item layout values pieces each =>
    cases hop with
    | member name => simp [Input.hop, Piece.hop, layout, Layout.kind?]
    | item index =>
      simp only [Input.hop, Piece.hop, layout]
      by_cases bound : index < values.length
      · have among : values[index] ∈ (Json.array values).children := List.getElem_mem bound
        rw [List.getElem?_eq_getElem bound, List.getElem?_eq_getElem (each.length_eq ▸ bound)]
        exact .some ⟨proper.of_mem_children among, each.get bound (each.length_eq ▸ bound)⟩
      · rw [List.getElem?_eq_none (by omega), List.getElem?_eq_none (by rw [← each.length_eq]; omega)]
        exact .none
  | @entity members entity known reads extra =>
    cases hop with
    | member name =>
      rw [Input.hop, known, Option.bind_some, Piece.hop]
      cases found : entity.kind.field? name with
      | none =>
        rw [entity.member?_eq_none (Kind.field?_eq_none found)]
        exact .none
      | some field =>
        obtain ⟨among, rfl⟩ := Kind.field?_eq_some found
        exact gives_field (reads field among) (fun _ => proper.of_get?)
          (Kind.layout_of_listed among)
    | item index => simp [Input.hop, Piece.hop]
  | other isOpen unknown =>
    cases hop with
    | member name => simp [Input.hop, Piece.hop, unknown]
    | item index =>
      cases layout : shape.layout with
      | list item => simp [layout, Layout.isOpen] at isOpen
      | _ => simp [Input.hop, Piece.hop, layout]

/-- A walk down on both sides. -/
theorem Gives.walk {input : Input} (gives : input.Gives piece) (path : List Hop) :
    Option.Rel Gives (input.walk path) (piece.walk path) := by
  induction path generalizing input piece with
  | nil => exact .some gives
  | cons first rest ih =>
    rw [Input.walk, Piece.walk, List.foldlM_cons, List.foldlM_cons]
    have below := gives.hop first
    revert below
    generalize input.hop first = next
    generalize piece.hop first = under
    intro below
    cases below with
    | none => exact .none
    | some below => exact ih below

/-- What is kept as it was given is exactly what has no known tag. -/
theorem Gives.other_iff {input : Input} (gives : input.Gives piece) (value : Json) :
    piece = .other value ↔ input.IsUnknown ∧ input.value = value := by
  obtain ⟨proper, decoded⟩ := gives
  constructor
  · rintro rfl
    cases input with
    | mk shape given =>
    cases (decode_iff proper).mp decoded with
    | other isOpen unknown => exact ⟨⟨isOpen, unknown⟩, rfl⟩
  · rintro ⟨⟨isOpen, unknown⟩, rfl⟩
    exact Except.ok.inj (decoded.symm.trans (decode_unknown isOpen unknown))

end Input

/-! ## Templates -/

theorem wellFormed_template_iff :
    WellFormed .template value ↔ ∃ (members : Members) (nodes : List Json),
      value = .object members ∧ members.get? "body" = some (.array nodes) ∧
        ∀ node ∈ nodes, WellFormed .node node := by
  constructor
  · intro wellFormed
    cases wellFormed with
    | record known present each =>
      obtain rfl := Option.some.inj known
      have among : Field.mk "body" .required .nodes ∈ Kind.template.fields := List.mem_cons_self ..
      obtain ⟨body, given⟩ := present _ among rfl
      cases each _ among body given (by simp) with
      | list layout nodes =>
        cases layout
        exact ⟨_, _, rfl, given, nodes⟩
      | text layout => cases layout
      | location layout => cases layout
      | record known => cases known
      | unknown isOpen => cases isOpen
    | text layout => cases layout
    | location layout => cases layout
    | list layout => cases layout
    | unknown isOpen => cases isOpen
  · rintro ⟨members, nodes, rfl, given, each⟩
    refine .record rfl ?_ ?_
    · exact List.forall_mem_singleton.mpr fun _ => ⟨_, given⟩
    · refine List.forall_mem_singleton.mpr fun body present _ => ?_
      obtain rfl := Option.some.inj (given.symm.trans present)
      exact .list rfl each

/-- A template is decoded exactly if it has a list of well-formed nodes, and what it keeps unread
is exactly what has no known tag where it stands. -/
theorem template_decode_iff (value : Json) (proper : value.Proper) :
    ((∃ template, Template.decode value = .ok template) ↔
      ∃ (members : Members) (nodes : List Json), value = .object members ∧
        members.get? "body" = some (.array nodes) ∧ ∀ node ∈ nodes, WellFormed .node node) ∧
    ∀ template, Template.decode value = .ok template → ∀ path kept,
      (Piece.ofTemplate template).walk path = some (.other kept) ↔
        ∃ input, Input.walk ⟨.template, value⟩ path = some input ∧
          input.IsUnknown ∧ input.value = kept := by
  constructor
  · rw [← wellFormed_template_iff, ← exists_decode_iff proper]
    simp [Shape.decode, map_eq_ok_iff]
  · intro template decoded path kept
    have gives : Input.Gives ⟨.template, value⟩ (Piece.ofTemplate template) :=
      ⟨proper, map_eq_ok_iff.mpr ⟨template, decoded, rfl⟩⟩
    have below := gives.walk path
    revert below
    generalize Input.walk ⟨.template, value⟩ path = input
    generalize (Piece.ofTemplate template).walk path = piece
    intro below
    cases below with
    | none => simp
    | some there => simpa using there.other_iff kept

/-- A node that is not known. -/
def comment : Json := .object [("type", .string "CommentStatement"), ("value", .string "note")]

/-- A template with an unknown node inside an element. -/
def commented : Json :=
  .object [("body", .array [.object [("type", .string "ElementNode"), ("tag", .string "p"),
    ("children", .array [comment])]])]

theorem commented_proper : commented.Proper := by
  have note : comment.Proper := .object (by decide) (by simp [Proper.string])
  have children : (Json.array [comment]).Proper := .array (by simpa using note)
  have node : (Json.object [("type", .string "ElementNode"), ("tag", .string "p"),
      ("children", .array [comment])]).Proper :=
    .object (by decide) (by simp [Proper.string, children])
  have nodes : (Json.array [Json.object [("type", .string "ElementNode"), ("tag", .string "p"),
      ("children", .array [comment])]]).Proper := .array (by simpa using node)
  exact .object (by decide) (by simpa using nodes)

theorem template_decode_iff_commented :
    commented.Proper ∧
      (∃ (members : Members) (nodes : List Json), commented = .object members ∧
        members.get? "body" = some (.array nodes) ∧ ∀ node ∈ nodes, WellFormed .node node) ∧
      ∃ template, Template.decode commented = .ok template ∧
        (Piece.ofTemplate template).walk
          [.member "body", .item 0, .member "children", .item 0] = some (.other comment) := by
  obtain ⟨accepted, unread⟩ := template_decode_iff commented commented_proper
  exact ⟨commented_proper, accepted.mp ⟨_, rfl⟩, _, rfl,
    (unread _ rfl _ comment).mpr ⟨⟨.node, comment⟩, rfl, ⟨rfl, rfl⟩, rfl⟩⟩

end TemplateLint.Schema
