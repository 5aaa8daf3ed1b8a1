import Mathlib
import TemplateLint.Proofs.Pieces

/-! # Decoding by the schema

Records are decoded member by member into a draft. What comes out does not depend on the order of
the members: `Kind.Lawful` says that each member of a record is read from the value of its name, and
that all members the kind has no use for are kept. It is proved once, for the members that are added
to a draft one after another, and holds of each kind of record because its draft obeys the laws of
`Drafting`.
-/

namespace TemplateLint.Schema

open Json

/-- Read what stands at a position. -/
def Shape.decode : Shape → Json → Except DecodeError Piece
  | .text, value => value.decodeText.map .text
  | .location, value => (Location.decode .fewerInArray value).map .location
  | .nodes, value => (Node.decodeNodes value).map (.ofList .ofNode)
  | .attributes, value => (value.decodeList Attribute.decode).map (.ofList .ofAttribute)
  | .parts, value => (value.decodeList Part.decode).map (.ofList .ofPart)
  | .template, value => (Template.decode value).map .ofTemplate
  | .branch, value => (Block.decode value).map .ofBranch
  | .attr, value => (Attribute.decode value).map .ofAttribute
  | .node, value => (Node.decode value).map .ofNode
  | .attributeValue, value => (AttributeValue.decode value).map .ofValue
  | .part, value => (Part.decode value).map .ofPart
  | .expression, value => (Expression.decode value).map .ofExpression

namespace Field

/-- What a record has for a member that is left out. -/
def default? (field : Field) : Option Piece :=
  if field.need = .listed then some (.list []) else none

/-- What a record has for a member, given the value that stands for it. -/
inductive Reads (field : Field) : Option Json → Option Piece → Prop where
  | absent (needless : field.need ≠ .required) : Reads field none field.default?
  | null (optional : field.need = .optional) : Reads field (some .null) none
  | value {value : Json} {piece : Piece} (given : ¬ (field.need = .optional ∧ value = .null))
      (decoded : field.shape.decode value = .ok piece) : Reads field (some value) (some piece)

/-- A member that must be there is read from a value. -/
theorem Reads.of_required {field : Field} {input : Option Json} {output : Option Piece}
    (reads : field.Reads input output) (needed : field.need = .required) :
    ∃ piece, output = some piece := by
  cases reads with
  | absent needless => exact absurd needed needless
  | null optional => exact absurd (needed.symm.trans optional) (by decide)
  | value => exact ⟨_, rfl⟩

theorem Reads.unique {field : Field} {input : Option Json} {first second : Option Piece}
    (one : field.Reads input first) (other : field.Reads input second) : first = second := by
  cases one with
  | absent =>
    cases other
    rfl
  | null optional =>
    cases other with
    | null => rfl
    | value given => exact absurd ⟨optional, rfl⟩ given
  | value given decoded =>
    cases other with
    | null optional => exact absurd ⟨optional, rfl⟩ given
    | value _ again => rw [Except.ok.inj (decoded.symm.trans again)]

end Field

/-- Decoding a record of a kind reads each of its members from the value of its name, whatever
their order, and keeps the members that the kind has no use for. -/
structure Kind.Lawful (kind : Kind) (decode : Members → Except DecodeError Entity) : Prop where
  accepts {members : Members} (distinct : (members.map Prod.fst).Nodup)
    (readable : ∀ field ∈ kind.fields, ∃ piece, field.Reads (members.get? field.name) piece) :
    ∃ entity, decode members = .ok entity
  reads {members : Members} {entity : Entity} (distinct : (members.map Prod.fst).Nodup)
    (decoded : decode members = .ok entity) :
    entity.kind = kind ∧
      (∀ field ∈ kind.fields, field.Reads (members.get? field.name) (entity.member? field.name)) ∧
        entity.extra = members.filter fun member => member.1 ∉ kind.names

/-! ## Drafts -/

variable {σ : Type}

/-- How a draft of a record is seen: the members it has so far and the unread ones. -/
structure Sketch (σ : Type) where
  entries : σ → List (String × Option Piece)
  extra : σ → Members

/-- The member of a draft with a name, if it is there so far. -/
def Sketch.member? (sketch : Sketch σ) (draft : σ) (name : String) : Option Piece :=
  ((sketch.entries draft).lookup name).join

/-- Adding a member to a draft sets the member of its name and no other. -/
structure Field.SetBy (field : Field) (kind : Kind) (sketch : Sketch σ)
    (add : σ → String → Json → Except DecodeError σ) : Prop where
  accepts (draft : σ) {value : Json} {piece : Option Piece}
    (readable : field.Reads (some value) piece) : ∃ next, add draft field.name value = .ok next
  reads {draft next : σ} {value : Json} (added : add draft field.name value = .ok next) :
    field.Reads (some value) (sketch.member? next field.name) ∧
      (∀ other ∈ kind.fields, other.name ≠ field.name →
        sketch.member? next other.name = sketch.member? draft other.name) ∧
      sketch.extra next = sketch.extra draft

/-- The members of a kind of record are added to its drafts. -/
structure Drafting (kind : Kind) (sketch : Sketch σ)
    (add : σ → String → Json → Except DecodeError σ) : Prop where
  sets : ∀ field ∈ kind.fields, field.SetBy kind sketch add
  keeps (draft : σ) {key : String} (value : Json) (unread : key ∉ kind.names) :
    ∃ next, add draft key value = .ok next ∧ sketch.entries next = sketch.entries draft ∧
      sketch.extra next = sketch.extra draft ++ [(key, value)]

namespace Drafting

variable {kind : Kind} {sketch : Sketch σ} {add : σ → String → Json → Except DecodeError σ}
  {draft final : σ} {members : Members}

theorem gather_cons (add : σ → String → Json → Except DecodeError σ) (draft : σ) (key : String)
    (value : Json) (rest : Members) :
    gather add draft ((key, value) :: rest) =
      (add draft key value >>= fun next => gather add next rest) :=
  rfl

theorem gather_accepts (drafting : Drafting kind sketch add) (draft : σ)
    (distinct : (members.map Prod.fst).Nodup)
    (readable : ∀ field ∈ kind.fields, ∀ value, members.get? field.name = some value →
      ∃ piece, field.Reads (some value) piece) :
    ∃ final, gather add draft members = .ok final := by
  induction members generalizing draft with
  | nil => exact ⟨draft, rfl⟩
  | cons member rest ih =>
    rcases member with ⟨key, value⟩
    rw [List.map_cons, List.nodup_cons] at distinct
    have added : ∃ next, add draft key value = .ok next := by
      by_cases declared : key ∈ kind.names
      · obtain ⟨field, among, rfl⟩ := List.mem_map.mp declared
        have here : Members.get? ((field.name, value) :: rest) field.name = some value := by
          rw [Members.get?_cons, if_pos rfl]
        obtain ⟨piece, reads⟩ := readable field among value here
        exact (drafting.sets field among).accepts draft reads
      · obtain ⟨next, added, _⟩ := drafting.keeps draft value declared
        exact ⟨next, added⟩
    obtain ⟨next, added⟩ := added
    rw [gather_cons, added]
    refine ih next distinct.2 fun field among later present => readable field among later ?_
    have differs : field.name ≠ key := by
      rintro rfl
      exact distinct.1 (List.mem_map.mpr ⟨_, Members.mem_of_get? present, rfl⟩)
    rw [Members.get?_cons, if_neg differs, present]

theorem add_reads (drafting : Drafting kind sketch add) {next : σ} {key : String} {value : Json}
    (added : add draft key value = .ok next) :
    (∀ field ∈ kind.fields, field.name = key →
      field.Reads (some value) (sketch.member? next field.name)) ∧
    (∀ field ∈ kind.fields, field.name ≠ key →
      sketch.member? next field.name = sketch.member? draft field.name) ∧
    sketch.extra next =
      sketch.extra draft ++ [(key, value)].filter fun member => member.1 ∉ kind.names := by
  by_cases declared : key ∈ kind.names
  · obtain ⟨field, among, rfl⟩ := List.mem_map.mp declared
    obtain ⟨_, others, unread⟩ := (drafting.sets field among).reads added
    refine ⟨fun other among same => ?_, others, by simpa [declared] using unread⟩
    rw [← same] at added
    exact ((drafting.sets other among).reads added).1
  · obtain ⟨kept, keeps, entries, unread⟩ := drafting.keeps draft value declared
    obtain rfl : kept = next := Except.ok.inj (keeps.symm.trans added)
    refine ⟨fun field among same => ?_, fun field _ _ => ?_, by simpa [declared] using unread⟩
    · exact absurd (List.mem_map.mpr ⟨field, among, same⟩) declared
    · rw [Sketch.member?, Sketch.member?, entries]

theorem lookup_map_name {β : Type} {fields : List Field} {field : Field}
    (distinct : (fields.map Field.name).Nodup) (among : field ∈ fields) (content : Field → β) :
    (fields.map fun field => (field.name, content field)).lookup field.name =
      some (content field) := by
  induction fields with
  | nil => cases among
  | cons first rest ih =>
    rw [List.map_cons, List.nodup_cons] at distinct
    rw [List.map_cons, lookup_cons_ite]
    rcases List.mem_cons.mp among with rfl | later
    · rw [if_pos rfl]
    · have differs : field.name ≠ first.name := fun same =>
        distinct.1 (List.mem_map.mpr ⟨field, later, same⟩)
      rw [if_neg differs, ih distinct.2 later]

/-- What was gathered has each member that was met and the others as before. -/
theorem gather_reads (drafting : Drafting kind sketch add)
    (distinct : (members.map Prod.fst).Nodup) (gathered : gather add draft members = .ok final) :
    (∀ field ∈ kind.fields, ∀ value, members.get? field.name = some value →
      field.Reads (some value) (sketch.member? final field.name)) ∧
    (∀ field ∈ kind.fields, members.get? field.name = none →
      sketch.member? final field.name = sketch.member? draft field.name) ∧
    sketch.extra final =
      sketch.extra draft ++ members.filter fun member => member.1 ∉ kind.names := by
  induction members generalizing draft with
  | nil =>
    obtain rfl : draft = final := Except.ok.inj gathered
    simp [Members.get?_nil]
  | cons member rest ih =>
    rcases member with ⟨key, value⟩
    rw [List.map_cons, List.nodup_cons] at distinct
    rw [gather_cons, bind_eq_ok_iff] at gathered
    obtain ⟨next, added, gathered⟩ := gathered
    obtain ⟨here, others, unread⟩ := drafting.add_reads added
    obtain ⟨met, unmet, later⟩ := ih distinct.2 gathered
    have absent : Members.get? rest key = none := Members.get?_eq_none_iff.mpr distinct.1
    refine ⟨fun field among given present => ?_, fun field among missing => ?_, ?_⟩
    · rw [Members.get?_cons] at present
      split_ifs at present with same
      · obtain rfl := Option.some.inj present
        rw [unmet field among (same ▸ absent)]
        exact here field among same
      · exact met field among given present
    · rw [Members.get?_cons] at missing
      split_ifs at missing with same
      rw [unmet field among missing, others field among same]
    · rw [later, unread, List.append_assoc, ← List.filter_append, List.singleton_append]

/-- A record whose members are gathered into a draft and that is finished from it is decoded
lawfully. -/
theorem lawful (drafting : Drafting kind sketch add) (start : σ)
    (finish : σ → Except DecodeError Entity) {decode : Members → Except DecodeError Entity}
    (decodes : ∀ members, decode members = gather add start members >>= finish)
    (entries : sketch.entries start = kind.fields.map fun field => (field.name, field.default?))
    (unread : sketch.extra start = [])
    (finishes : ∀ draft, (∀ field ∈ kind.fields, field.need = .required →
      ∃ piece, sketch.member? draft field.name = some piece) → ∃ entity, finish draft = .ok entity)
    (finished : ∀ draft entity, finish draft = .ok entity →
      entity.kind = kind ∧ entity.entries = sketch.entries draft ∧
        entity.extra = sketch.extra draft) :
    kind.Lawful decode where
  accepts := by
    intro members distinct readable
    obtain ⟨draft, gathered⟩ := drafting.gather_accepts start distinct
      fun field among value present => present ▸ readable field among
    obtain ⟨met, _, _⟩ := drafting.gather_reads distinct gathered
    have complete : ∀ field ∈ kind.fields, field.need = .required →
        ∃ piece, sketch.member? draft field.name = some piece := by
      intro field among needed
      obtain ⟨piece, reads⟩ := readable field among
      cases present : members.get? field.name with
      | none =>
        rw [present] at reads
        cases reads with
        | absent needless => exact absurd needed needless
      | some value => exact (met field among value present).of_required needed
    obtain ⟨entity, done⟩ := finishes draft complete
    exact ⟨entity, by rw [decodes, gathered]; exact done⟩
  reads := by
    intro members entity distinct decoded
    rw [decodes, bind_eq_ok_iff] at decoded
    obtain ⟨draft, gathered, done⟩ := decoded
    obtain ⟨met, unmet, extra⟩ := drafting.gather_reads distinct gathered
    obtain ⟨same, written, kept⟩ := finished draft entity done
    have seen : ∀ name, entity.member? name = sketch.member? draft name := by
      intro name
      rw [Entity.member?, Sketch.member?, written]
    have started : ∀ field ∈ kind.fields, sketch.member? start field.name = field.default? := by
      intro field among
      rw [Sketch.member?, entries, lookup_map_name kind.nodup_names among]
      rfl
    refine ⟨same, fun field among => ?_, by rw [kept, extra, unread, List.nil_append]⟩
    rw [seen]
    cases present : members.get? field.name with
    | none =>
      rw [unmet field among present, started field among]
      refine .absent fun needed => ?_
      -- A record that was finished has all members that must be there.
      have needed' : field.need ≠ .optional := by simp [needed]
      obtain ⟨piece, there⟩ := entity.exists_member (same ▸ among) needed'
      rw [seen, unmet field among present, started field among] at there
      simp [Field.default?, needed] at there
    | some value => exact met field among value present

end Drafting

/-! ## Members of drafts -/

/-- Set the member with a name. -/
def putEntry (name : String) (piece : Option Piece) (entries : List (String × Option Piece)) :
    List (String × Option Piece) :=
  entries.map fun entry => if entry.1 = name then (name, piece) else entry

theorem lookup_putEntry (name other : String) (piece : Option Piece)
    (entries : List (String × Option Piece)) :
    (putEntry name piece entries).lookup other =
      if other = name then (entries.lookup name).map fun _ => piece else entries.lookup other := by
  induction entries with
  | nil => simp [putEntry]
  | cons entry rest ih =>
    rcases entry with ⟨first, old⟩
    rw [putEntry] at ih ⊢
    simp only [List.map_cons]
    by_cases here : first = name
    · subst here
      rw [if_pos rfl, lookup_cons_ite, lookup_cons_ite, lookup_cons_ite, ih, if_pos rfl]
      split_ifs <;> rfl
    · rw [if_neg here, lookup_cons_ite, lookup_cons_ite, lookup_cons_ite, ih,
        if_neg (Ne.symm here)]
      split_ifs with same another
      · exact absurd (same.symm.trans another) here
      · rfl
      · rfl
      · rfl

namespace Field

variable {field : Field} {α : Type}

theorem reads_iff {decode : Json → Except DecodeError α} {view : α → Piece}
    (needed : field.need ≠ .optional)
    (shape : ∀ value, field.shape.decode value = (decode value).map view) (value : Json)
    (output : Option Piece) :
    field.Reads (some value) output ↔
      ∃ item, decode value = .ok item ∧ output = some (view item) := by
  constructor
  · intro reads
    cases reads with
    | null optional => exact absurd optional needed
    | value _ decoded =>
      rw [shape, map_eq_ok_iff] at decoded
      obtain ⟨item, decoded, rfl⟩ := decoded
      exact ⟨item, decoded, rfl⟩
  · rintro ⟨item, decoded, rfl⟩
    refine .value (fun null => needed null.1) ?_
    rw [shape, decoded]
    rfl

theorem decodeOptional_of_ne_null {decode : Json → Except DecodeError α} {value : Json}
    (given : value ≠ .null) : value.decodeOptional decode = (decode value).map some := by
  unfold decodeOptional
  split
  · exact absurd rfl given
  · rfl

theorem reads_optional_iff {decode : Json → Except DecodeError α} {view : α → Piece}
    (optional : field.need = .optional)
    (shape : ∀ value, field.shape.decode value = (decode value).map view) (value : Json)
    (output : Option Piece) :
    field.Reads (some value) output ↔
      ∃ item, value.decodeOptional decode = .ok item ∧ output = item.map view := by
  by_cases null : value = .null
  · subst null
    constructor
    · intro reads
      cases reads with
      | null => exact ⟨none, rfl, rfl⟩
      | value given => exact absurd ⟨optional, rfl⟩ given
    · rintro ⟨item, decoded, rfl⟩
      obtain rfl : none = item := Except.ok.inj decoded
      exact .null optional
  · rw [decodeOptional_of_ne_null null]
    constructor
    · intro reads
      cases reads with
      | null => exact absurd rfl null
      | value _ decoded =>
        rw [shape, map_eq_ok_iff] at decoded
        obtain ⟨item, decoded, rfl⟩ := decoded
        exact ⟨some item, by rw [decoded]; rfl, rfl⟩
    · rintro ⟨item, decoded, rfl⟩
      obtain ⟨content, found, rfl⟩ := map_eq_ok_iff.mp decoded
      exact .value (fun given => null given.2) (by rw [shape, found]; rfl)

theorem SetBy.of_reads {kind : Kind} {sketch : Sketch σ}
    {add : σ → String → Json → Except DecodeError σ} {decode : Json → Except DecodeError α}
    {view : α → Option Piece} (set : σ → α → σ)
    (reads : ∀ value output, field.Reads (some value) output ↔
      ∃ item, decode value = .ok item ∧ output = view item)
    (adds : ∀ draft value, add draft field.name value = do return set draft (← decode value) := by
      exact fun _ _ => rfl)
    (declared : ∀ draft, ∃ old, (sketch.entries draft).lookup field.name = some old := by
      exact fun _ => ⟨_, rfl⟩)
    (entries : ∀ draft item, sketch.entries (set draft item) =
      putEntry field.name (view item) (sketch.entries draft) := by exact fun _ _ => rfl)
    (unread : ∀ draft item, sketch.extra (set draft item) = sketch.extra draft := by
      exact fun _ _ => rfl) :
    field.SetBy kind sketch add where
  accepts := by
    intro draft value piece readable
    obtain ⟨item, decoded, _⟩ := (reads value piece).mp readable
    exact ⟨set draft item, by rw [adds, decoded]; rfl⟩
  reads := by
    intro draft next value added
    rw [adds, bind_eq_ok_iff] at added
    obtain ⟨item, decoded, finished⟩ := added
    obtain rfl : set draft item = next := Except.ok.inj finished
    obtain ⟨old, present⟩ := declared draft
    refine ⟨?_, fun other _ differs => ?_, unread draft item⟩
    · rw [Sketch.member?, entries, lookup_putEntry, if_pos rfl, present]
      exact (reads value _).mpr ⟨item, decoded, rfl⟩
    · rw [Sketch.member?, entries, lookup_putEntry, if_neg differs, Sketch.member?]

end Field

/-! ## The kinds of records -/

/-- What a longer array should have been matters only for the error. -/
theorem decode_location_iff (surplus : Expected) (value : Json) (place : Location) :
    Location.decode surplus value = .ok place ↔
      Location.decode .fewerInArray value = .ok place := by
  cases value with
  | array items =>
    rcases items with _ | ⟨line, _ | ⟨column, _ | ⟨next, rest⟩⟩⟩
    · exact Iff.rfl
    · exact Iff.rfl
    · exact Iff.rfl
    · simp [Location.decode, bind_eq_ok_iff]
  | _ => exact Iff.rfl

theorem reads_location_iff (surplus : Expected) (value : Json) (output : Option Piece) :
    Kind.locationField.Reads (some value) output ↔ ∃ place,
      value.decodeOptional (Location.decode surplus) = .ok place ∧
        output = place.map .location := by
  rw [Field.reads_optional_iff rfl fun _ => rfl]
  refine exists_congr fun place => and_congr_left fun _ => ?_
  unfold decodeOptional
  split
  · exact Iff.rfl
  · rw [map_eq_ok_iff, map_eq_ok_iff]
    exact exists_congr fun _ => and_congr_left fun _ => (decode_location_iff ..).symm

/-- A draft of a record that holds one text. -/
def textSketch (name : String) : Sketch TextDraft where
  entries draft := [(name, draft.text.map .text), ("loc", draft.location.map .location)]
  extra draft := draft.extra

theorem textDrafting {kind : Kind} {name : String} (differs : name ≠ "loc")
    (fields : kind.fields = [⟨name, .required, .text⟩, Kind.locationField]) (surplus : Expected) :
    Drafting kind (textSketch name) (TextDraft.add name surplus) where
  sets := by
    rw [fields]
    refine List.forall_mem_cons.mpr ⟨?_, List.forall_mem_singleton.mpr ?_⟩
    · refine .of_reads (fun draft text => { draft with text := some text })
        (Field.reads_iff nofun fun _ => rfl) ?_ ?_ ?_
      · exact fun draft value => if_pos rfl
      · simp [textSketch]
      · simp [textSketch, putEntry, Ne.symm differs]
    · refine .of_reads (fun draft place => { draft with location := place })
        (reads_location_iff surplus) ?_ ?_ ?_
      · exact fun draft value => if_neg (Ne.symm differs)
      · simp [textSketch, Kind.locationField, lookup_cons_ite, Ne.symm differs]
      · simp [textSketch, putEntry, differs, Kind.locationField]
  keeps := by
    intro draft key value unread
    simp only [Kind.names, fields, Kind.locationField, List.map_cons, List.map_nil, List.mem_cons,
      List.not_mem_nil, or_false, not_or] at unread
    refine ⟨{ draft with extra := draft.extra ++ [(key, value)] }, ?_, rfl, rfl⟩
    rw [TextDraft.add, if_neg unread.1, if_neg unread.2]
    rfl

/-- A draft of a mustache. -/
def mustacheSketch : Sketch Mustache.Draft where
  entries draft :=
    [("path", draft.path.map .ofExpression), ("loc", draft.location.map .location)]
  extra draft := draft.extra

theorem mustacheDrafting (surplus : Expected) :
    Drafting .mustache mustacheSketch (Mustache.Draft.add surplus) where
  sets := by
    refine List.forall_mem_cons.mpr ⟨?_, List.forall_mem_singleton.mpr ?_⟩
    · exact .of_reads (fun draft path => { draft with path := some path })
        (Field.reads_iff nofun fun _ => rfl)
    · exact .of_reads (fun draft place => { draft with location := place })
        (reads_location_iff surplus)
  keeps := by
    intro draft key value unread
    refine ⟨{ draft with extra := draft.extra ++ [(key, value)] }, ?_, rfl, rfl⟩
    unfold Mustache.Draft.add
    split
    · exact absurd (by decide) unread
    · exact absurd (by decide) unread
    · rfl

/-- A draft of a mixed attribute value. -/
def concatSketch : Sketch Concat.Draft where
  entries draft := [("parts", draft.parts.map (.ofList .ofPart))]
  extra draft := draft.extra

theorem concatDrafting : Drafting .concat concatSketch Concat.Draft.add where
  sets := List.forall_mem_singleton.mpr <|
    .of_reads (fun draft parts => { draft with parts := some parts })
      (Field.reads_iff nofun fun _ => rfl)
  keeps := by
    intro draft key value unread
    refine ⟨{ draft with extra := draft.extra ++ [(key, value)] }, ?_, rfl, rfl⟩
    unfold Concat.Draft.add
    split
    · exact absurd (by decide) unread
    · rfl

/-- A draft of an attribute. -/
def attributeSketch : Sketch Attribute.Draft where
  entries draft :=
    [("name", draft.name.map .text), ("value", draft.value.map .ofValue),
      ("loc", draft.location.join.map .location)]
  extra draft := draft.extra

theorem attributeDrafting : Drafting .attr attributeSketch Attribute.Draft.add where
  sets := by
    refine List.forall_mem_cons.mpr ⟨?_, List.forall_mem_cons.mpr
      ⟨?_, List.forall_mem_singleton.mpr ?_⟩⟩
    · exact .of_reads (fun draft name => { draft with name := some name })
        (Field.reads_iff nofun fun _ => rfl)
    · exact .of_reads (fun draft value => { draft with value := some value })
        (Field.reads_iff nofun fun _ => rfl)
    · exact .of_reads (fun draft place => { draft with location := some place })
        (reads_location_iff .fewerInArray)
  keeps := by
    intro draft key value unread
    refine ⟨{ draft with extra := draft.extra ++ [(key, value)] }, ?_, rfl, rfl⟩
    unfold Attribute.Draft.add
    split
    · exact absurd (by decide) unread
    · exact absurd (by decide) unread
    · exact absurd (by decide) unread
    · rfl

/-- Add a member to a list of nodes with unread members. -/
def addToBody (draft : BodyDraft) (key : String) (value : Json) : Except DecodeError BodyDraft :=
  match key with
  | "body" => return { draft with body := some (← Node.decodeNodes value) }
  | _ => return { draft with extra := draft.extra ++ [(key, value)] }

theorem decodeBody_eq_gather (members : Members) (draft : BodyDraft) :
    Node.decodeBody members draft = gather addToBody draft members := by
  induction members generalizing draft with
  | nil => rw [Node.decodeBody]; rfl
  | cons member rest ih =>
    rcases member with ⟨key, value⟩
    rw [Drafting.gather_cons, addToBody.eq_def]
    split
    · rw [Node.decodeBody]
      simp only [ih, bind_assoc, pure_bind]
    · rw [Node.decodeBody, ih]
      · rfl
      · assumption

/-- A draft of a list of nodes with unread members. -/
def bodySketch : Sketch BodyDraft where
  entries draft := [("body", draft.body.map (.ofList .ofNode))]
  extra draft := draft.extra

theorem bodyDrafting {kind : Kind} (fields : kind.fields = [⟨"body", .required, .nodes⟩]) :
    Drafting kind bodySketch addToBody where
  sets := by
    rw [fields]
    exact List.forall_mem_singleton.mpr <|
      .of_reads (fun draft body => { draft with body := some body })
        (Field.reads_iff nofun fun _ => rfl)
  keeps := by
    intro draft key value unread
    refine ⟨{ draft with extra := draft.extra ++ [(key, value)] }, ?_, rfl, rfl⟩
    unfold addToBody
    split
    · simp [Kind.names, fields] at unread
    · rfl

/-- Add a member to an element. -/
def addToElement (draft : ElementDraft) (key : String) (value : Json) :
    Except DecodeError ElementDraft :=
  match key with
  | "tag" => return { draft with tag := some (← value.decodeText) }
  | "attributes" => return { draft with attributes := ← value.decodeList Attribute.decode }
  | "children" => return { draft with children := ← Node.decodeNodes value }
  | "loc" =>
    return { draft with location := ← value.decodeOptional (Location.decode .fewerInArray) }
  | _ => return { draft with extra := draft.extra ++ [(key, value)] }

theorem decodeElement_eq_gather (members : Members) (draft : ElementDraft) :
    Node.decodeElement members draft = gather addToElement draft (members.erase "type") := by
  induction members generalizing draft with
  | nil => rw [Node.decodeElement]; rfl
  | cons member rest ih =>
    rcases member with ⟨key, value⟩
    by_cases tagged : key = "type"
    · subst tagged
      rw [Node.decodeElement, ih]
      rfl
    · have kept : Members.erase "type" ((key, value) :: rest) =
          (key, value) :: Members.erase "type" rest :=
        List.filter_cons_of_pos (by simpa using tagged)
      rw [kept, Drafting.gather_cons, addToElement.eq_def]
      split
      · simp only [Node.decodeElement, ih, bind_assoc, pure_bind]
      · simp only [Node.decodeElement, ih, bind_assoc, pure_bind]
      · simp only [Node.decodeElement, ih, bind_assoc, pure_bind]
      · simp only [Node.decodeElement, ih, bind_assoc, pure_bind]
      · rw [Node.decodeElement, ih]
        · rfl
        all_goals assumption

/-- A draft of an element. -/
def elementSketch : Sketch ElementDraft where
  entries draft :=
    [("tag", draft.tag.map .text), ("attributes", some (.ofList .ofAttribute draft.attributes)),
      ("children", some (.ofList .ofNode draft.children)), ("loc", draft.location.map .location)]
  extra draft := draft.extra

theorem elementDrafting : Drafting .element elementSketch addToElement where
  sets := by
    refine List.forall_mem_cons.mpr ⟨?_, List.forall_mem_cons.mpr ⟨?_, List.forall_mem_cons.mpr
      ⟨?_, List.forall_mem_singleton.mpr ?_⟩⟩⟩
    · exact .of_reads (fun draft tag => { draft with tag := some tag })
        (Field.reads_iff nofun fun _ => rfl)
    · exact .of_reads (fun draft attributes => { draft with attributes := attributes })
        (Field.reads_iff nofun fun _ => rfl)
    · exact .of_reads (fun draft children => { draft with children := children })
        (Field.reads_iff nofun fun _ => rfl)
    · exact .of_reads (fun draft place => { draft with location := place })
        (reads_location_iff .fewerInArray)
  keeps := by
    intro draft key value unread
    refine ⟨{ draft with extra := draft.extra ++ [(key, value)] }, ?_, rfl, rfl⟩
    unfold addToElement
    split
    · exact absurd (by decide) unread
    · exact absurd (by decide) unread
    · exact absurd (by decide) unread
    · exact absurd (by decide) unread
    · rfl

/-- Add a member to a block. -/
def addToBlock (draft : BlockDraft) (key : String) (value : Json) :
    Except DecodeError BlockDraft :=
  match key with
  | "path" => return { draft with path := some (← Expression.decode value) }
  | "program" => return { draft with program := some (← Block.decode value) }
  | "inverse" => return { draft with inverse := ← value.decodeOptional Block.decode }
  | "loc" =>
    return { draft with location := ← value.decodeOptional (Location.decode .fewerInArray) }
  | _ => return { draft with extra := draft.extra ++ [(key, value)] }

theorem decodeBlock_eq_gather (members : Members) (draft : BlockDraft) :
    Node.decodeBlock members draft = gather addToBlock draft (members.erase "type") := by
  induction members generalizing draft with
  | nil => rw [Node.decodeBlock]; rfl
  | cons member rest ih =>
    rcases member with ⟨key, value⟩
    by_cases tagged : key = "type"
    · subst tagged
      rw [Node.decodeBlock, ih]
      rfl
    · have kept : Members.erase "type" ((key, value) :: rest) =
          (key, value) :: Members.erase "type" rest :=
        List.filter_cons_of_pos (by simpa using tagged)
      rw [kept, Drafting.gather_cons, addToBlock.eq_def]
      split
      · simp only [Node.decodeBlock, ih, bind_assoc, pure_bind]
      · simp only [Node.decodeBlock, ih, bind_assoc, pure_bind]
      · by_cases null : value = .null
        · subst null
          rw [Node.decodeBlock, ih]
          rfl
        · rw [Node.decodeBlock, Field.decodeOptional_of_ne_null null]
          · simp only [ih]
            cases Block.decode value <;> rfl
          · exact null
      · simp only [Node.decodeBlock, ih, bind_assoc, pure_bind]
      · rw [Node.decodeBlock, ih]
        · rfl
        all_goals assumption

/-- A draft of a block. -/
def blockSketch : Sketch BlockDraft where
  entries draft :=
    [("path", draft.path.map .ofExpression), ("program", draft.program.map .ofBranch),
      ("inverse", draft.inverse.map .ofBranch), ("loc", draft.location.map .location)]
  extra draft := draft.extra

theorem blockDrafting : Drafting .block blockSketch addToBlock where
  sets := by
    refine List.forall_mem_cons.mpr ⟨?_, List.forall_mem_cons.mpr ⟨?_, List.forall_mem_cons.mpr
      ⟨?_, List.forall_mem_singleton.mpr ?_⟩⟩⟩
    · exact .of_reads (fun draft path => { draft with path := some path })
        (Field.reads_iff nofun fun _ => rfl)
    · exact .of_reads (fun draft program => { draft with program := some program })
        (Field.reads_iff nofun fun _ => rfl)
    · exact .of_reads (fun draft inverse => { draft with inverse := inverse })
        (Field.reads_optional_iff rfl fun _ => rfl)
    · exact .of_reads (fun draft place => { draft with location := place })
        (reads_location_iff .fewerInArray)
  keeps := by
    intro draft key value unread
    refine ⟨{ draft with extra := draft.extra ++ [(key, value)] }, ?_, rfl, rfl⟩
    unfold addToBlock
    split
    · exact absurd (by decide) unread
    · exact absurd (by decide) unread
    · exact absurd (by decide) unread
    · exact absurd (by decide) unread
    · rfl

/-! ## Lawful decoding of each kind -/

theorem required_eq_ok_iff {α : Type} {name : String} {field : Option α} {item : α} :
    required name field = .ok item ↔ field = some item := by
  cases field <;> simp [required]

theorem exists_required {α : Type} {name : String} {field : Option α} {view : α → Piece}
    (present : ∃ piece, field.map view = some piece) : ∃ item, required name field = .ok item := by
  obtain ⟨piece, present⟩ := present
  obtain ⟨item, found, _⟩ := Option.map_eq_some_iff.mp present
  exact ⟨item, required_eq_ok_iff.mpr found⟩

namespace Kind

/-- A record that holds one text is decoded lawfully. -/
theorem lawful_of_text {kind : Kind} {name : String} (differs : name ≠ "loc")
    (fields : kind.fields = [⟨name, .required, .text⟩, locationField]) (surplus : Expected)
    (build : String → Option Location → Members → Entity)
    (kinds : ∀ text place extra, (build text place extra).kind = kind)
    (entries : ∀ text place extra, (build text place extra).entries =
      [(name, some (.text text)), ("loc", place.map .location)])
    (extras : ∀ text place extra, (build text place extra).extra = extra)
    {decode : Members → Except DecodeError Entity}
    (decodes : ∀ members, decode members = do
      let draft ← TextDraft.decode name surplus members
      return build (← required name draft.text) draft.location draft.extra) :
    kind.Lawful decode := by
  have member (draft : TextDraft) :
      (textSketch name).member? draft name = draft.text.map .text := by
    simp [textSketch, Sketch.member?]
  refine (textDrafting differs fields surplus).lawful {} _ decodes (by rw [fields]; rfl) rfl ?_ ?_
  · intro draft complete
    rw [fields] at complete
    have present := complete _ (List.mem_cons_self ..) rfl
    rw [member] at present
    obtain ⟨text, found⟩ := exists_required present
    exact ⟨build text draft.location draft.extra, by rw [found]; rfl⟩
  · intro draft entity finished
    obtain ⟨text, found, built⟩ := bind_eq_ok_iff.mp finished
    obtain rfl : build text draft.location draft.extra = entity := Except.ok.inj built
    rw [required_eq_ok_iff] at found
    exact ⟨kinds .., by simp [entries, textSketch, found], extras ..⟩

theorem lawful_text (surplus : Expected) :
    Lawful .text fun members => (TextNode.decode surplus members).map .text := by
  refine lawful_of_text (by decide) rfl surplus (fun text place extra => .text ⟨text, place, extra⟩)
    (fun _ _ _ => rfl) (fun _ _ _ => rfl) (fun _ _ _ => rfl) fun members => ?_
  simp only [TextNode.decode, map_of_bind]
  rfl

theorem lawful_literal :
    Lawful .literal fun members => (StringLiteral.decode members).map .literal := by
  refine lawful_of_text (by decide) rfl .fewerInArray
    (fun text place extra => .literal ⟨text, place, extra⟩)
    (fun _ _ _ => rfl) (fun _ _ _ => rfl) (fun _ _ _ => rfl) fun members => ?_
  simp only [StringLiteral.decode, map_of_bind]
  rfl

theorem lawful_path : Lawful .path fun members => (PathExpression.decode members).map .path := by
  refine lawful_of_text (by decide) rfl .fewerInArray
    (fun text place extra => .path ⟨text, place, extra⟩)
    (fun _ _ _ => rfl) (fun _ _ _ => rfl) (fun _ _ _ => rfl) fun members => ?_
  simp only [PathExpression.decode, map_of_bind]
  rfl

theorem lawful_mustache (surplus : Expected) :
    Lawful .mustache fun members => (Mustache.decode surplus members).map .mustache := by
  refine (mustacheDrafting surplus).lawful {} (fun draft => do
    return .mustache ⟨← required "path" draft.path, draft.location, draft.extra⟩)
    (fun members => ?_) rfl rfl ?_ ?_
  · simp only [Mustache.decode, map_of_bind]
    rfl
  · intro draft complete
    obtain ⟨path, found⟩ := exists_required (complete _ (List.mem_cons_self ..) rfl)
    exact ⟨.mustache ⟨path, draft.location, draft.extra⟩, by rw [found]; rfl⟩
  · intro draft entity finished
    obtain ⟨path, found, built⟩ := bind_eq_ok_iff.mp finished
    obtain rfl := Except.ok.inj built
    rw [required_eq_ok_iff] at found
    exact ⟨rfl, by simp [Entity.entries, mustacheSketch, found], rfl⟩

theorem lawful_concat : Lawful .concat fun members => (Concat.decode members).map .concat := by
  refine Drafting.lawful concatDrafting {} (fun draft => do
    return .concat ⟨← required "parts" draft.parts, draft.extra⟩) (fun members => ?_)
    rfl rfl ?_ ?_
  · simp only [Concat.decode, map_of_bind]
    rfl
  · intro draft complete
    obtain ⟨parts, found⟩ := exists_required (complete _ (List.mem_cons_self ..) rfl)
    exact ⟨.concat ⟨parts, draft.extra⟩, by rw [found]; rfl⟩
  · intro draft entity finished
    obtain ⟨parts, found, built⟩ := bind_eq_ok_iff.mp finished
    obtain rfl := Except.ok.inj built
    rw [required_eq_ok_iff] at found
    exact ⟨rfl, by simp [Entity.entries, concatSketch, found], rfl⟩

theorem lawful_attr :
    Lawful .attr fun members => (Attribute.decode (.object members)).map .attr := by
  refine Drafting.lawful attributeDrafting {} (fun draft => draft.finish.map .attr)
    (fun members => ?_) rfl rfl ?_ ?_
  · simp only [Attribute.decode, map_of_bind]
  · intro draft complete
    obtain ⟨name, named⟩ := exists_required (complete _ (List.mem_cons_self ..) rfl)
    obtain ⟨value, valued⟩ :=
      exists_required (complete _ (List.mem_cons_of_mem _ (List.mem_cons_self ..)) rfl)
    exact ⟨.attr ⟨name, value, draft.location.join, draft.extra⟩, by
      rw [Attribute.Draft.finish, named, valued]; rfl⟩
  · intro draft entity finished
    obtain ⟨attr, whole, rfl⟩ := map_eq_ok_iff.mp finished
    obtain ⟨name, named, rest⟩ := bind_eq_ok_iff.mp whole
    obtain ⟨value, valued, built⟩ := bind_eq_ok_iff.mp rest
    obtain rfl := Except.ok.inj built
    rw [required_eq_ok_iff] at named valued
    exact ⟨rfl, by simp [Entity.entries, attributeSketch, named, valued], rfl⟩

/-- A list of nodes with unread members is decoded lawfully. -/
theorem lawful_of_body {kind : Kind} (fields : kind.fields = [⟨"body", .required, .nodes⟩])
    (build : List Node → Members → Entity) (kinds : ∀ body extra, (build body extra).kind = kind)
    (entries : ∀ body extra, (build body extra).entries = [("body", some (.ofList .ofNode body))])
    (extras : ∀ body extra, (build body extra).extra = extra)
    {decode : Members → Except DecodeError Entity}
    (decodes : ∀ members, decode members = do
      let draft ← Node.decodeBody members {}
      return build (← required "body" draft.body) draft.extra) :
    kind.Lawful decode := by
  refine (bodyDrafting fields).lawful {} (fun draft => do
    return build (← required "body" draft.body) draft.extra) (fun members => ?_)
    (by rw [fields]; rfl) rfl ?_ ?_
  · rw [decodes, decodeBody_eq_gather]
  · intro draft complete
    rw [fields] at complete
    obtain ⟨body, found⟩ := exists_required (complete _ (List.mem_cons_self ..) rfl)
    exact ⟨build body draft.extra, by rw [found]; rfl⟩
  · intro draft entity finished
    obtain ⟨body, found, built⟩ := bind_eq_ok_iff.mp finished
    obtain rfl : build body draft.extra = entity := Except.ok.inj built
    rw [required_eq_ok_iff] at found
    exact ⟨kinds .., by simp [entries, bodySketch, found], extras ..⟩

theorem lawful_template :
    Lawful .template fun members => (Template.decode (.object members)).map .template := by
  refine lawful_of_body rfl (fun body extra => .template ⟨body, extra⟩) (fun _ _ => rfl)
    (fun _ _ => rfl) (fun _ _ => rfl) fun members => ?_
  simp only [Template.decode, map_of_bind]
  rfl

theorem lawful_branch :
    Lawful .branch fun members => (Block.decode (.object members)).map .branch := by
  refine lawful_of_body rfl (fun body extra => .branch (.mk body extra)) (fun _ _ => rfl)
    (fun _ _ => rfl) (fun _ _ => rfl) fun members => ?_
  simp only [Block.decode, BodyDraft.finishBlock, map_of_bind]
  rfl

/-- An element without its tag. -/
def decodeElement (members : Members) : Except DecodeError Entity := do
  let draft ← gather addToElement {} members
  return .element (← required "tag" draft.tag) draft.attributes draft.children draft.location
    draft.extra

theorem lawful_element : Lawful .element decodeElement := by
  refine Drafting.lawful elementDrafting {} _ (fun _ => rfl) rfl rfl ?_ ?_
  · intro draft complete
    obtain ⟨tag, found⟩ := exists_required (complete _ (List.mem_cons_self ..) rfl)
    exact ⟨.element tag draft.attributes draft.children draft.location draft.extra, by
      rw [found]; rfl⟩
  · intro draft entity finished
    obtain ⟨tag, found, built⟩ := bind_eq_ok_iff.mp finished
    obtain rfl := Except.ok.inj built
    rw [required_eq_ok_iff] at found
    exact ⟨rfl, by simp [Entity.entries, elementSketch, found], rfl⟩

/-- A block without its tag. -/
def decodeBlock (members : Members) : Except DecodeError Entity := do
  let draft ← gather addToBlock {} members
  return .block (← required "path" draft.path) (← required "program" draft.program) draft.inverse
    draft.location draft.extra

theorem lawful_block : Lawful .block decodeBlock := by
  refine Drafting.lawful blockDrafting {} _ (fun _ => rfl) rfl rfl ?_ ?_
  · intro draft complete
    obtain ⟨path, named⟩ := exists_required (complete _ (List.mem_cons_self ..) rfl)
    obtain ⟨program, given⟩ :=
      exists_required (complete _ (List.mem_cons_of_mem _ (List.mem_cons_self ..)) rfl)
    exact ⟨.block path program draft.inverse draft.location draft.extra, by
      rw [named, given]; rfl⟩
  · intro draft entity finished
    obtain ⟨path, named, rest⟩ := bind_eq_ok_iff.mp finished
    obtain ⟨program, given, built⟩ := bind_eq_ok_iff.mp rest
    obtain rfl := Except.ok.inj built
    rw [required_eq_ok_iff] at named given
    exact ⟨rfl, by simp [Entity.entries, blockSketch, named, given], rfl⟩

end Kind

end TemplateLint.Schema
