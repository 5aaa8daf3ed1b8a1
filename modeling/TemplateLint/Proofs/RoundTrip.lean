import Mathlib
import TemplateLint.Proofs.Printed
import TemplateLint.Proofs.RawReading
import TemplateLint.Proofs.Refixing
import TemplateLint.Proofs.Runs
import TemplateLint.Proofs.Soundness

/-! # Documents are read back as they were written

A document that was read has a sound template, and fixing keeps it sound. What is written for a
sound template is read as that template again, straight from the text: the readers of its members
take what was written for them, and its nodes are decoded from what was written for them.
-/

namespace TemplateLint

open Json Json.Reader Schema

variable {α σ : Type}

namespace Json.Reader

/-! ## Records are read back -/

theorem Record.recovers {shape : Record σ α} {depth level : Nat} {members : Members} {final : σ}
    {result : α} (gathers : Gathers (shape.member depth) (level + 1) members shape.start final)
    (finished : shape.finish final = .ok result) :
    (shape.read (depth + 1)).Recovers (render .pretty level (.object members)) result := by
  intro blank allBlank rest ends position
  obtain ⟨middle, begun⟩ := blanks_peek allBlank (c := '\x7b') rfl
    (inside level true members ++ '\x7d' :: rest) position
  obtain ⟨after, taken⟩ := fields_gathers shape.finish gathers finished rest middle
  rw [toList_render_object]
  exact ⟨after, (begun _).trans taken⟩

theorem text_recovers (level : Nat) (content : String) :
    text.Recovers (render .pretty level (.string content)) content := by
  intro blank allBlank rest ends position
  obtain ⟨middle, begun⟩ := blanks_peek allBlank (c := '"') rfl
    (content.toList.flatMap escapeChar ++ '"' :: rest) position
  obtain ⟨after, taken⟩ := stringBody_quoted content rest (middle.past '"')
  rw [render, toList_quote_append]
  exact ⟨after, (begun _).trans taken⟩

theorem decoded_recovers {decode : Json → Except DecodeError α} {depth : Nat} {raw : Json} {a : α}
    (plain : Plain depth raw) (proper : raw.Proper) (decodes : decode raw = .ok a) (level : Nat) :
    (decoded decode depth).Recovers (render .pretty level raw) a := by
  intro blank allBlank rest ends position
  obtain ⟨after, taken⟩ := plain.recovers proper level blank allBlank rest ends position
  refine ⟨after, (bind_ok taken).trans ?_⟩
  rw [decodes]
  rfl

theorem listOf_recovers {item : Nat → Reader α} {depth level : Nat} (write : α → Json)
    {items : List α} (starts : ∀ a ∈ items, Starts (render .pretty (level + 1) (write a)))
    (recovers : ∀ a ∈ items, (item depth).Recovers (render .pretty (level + 1) (write a)) a) :
    (listOf item (depth + 1)).Recovers (render .pretty level (.array (items.map write))) items := by
  intro blank allBlank rest ends position
  obtain ⟨middle, begun⟩ := blanks_peek allBlank (c := '[') rfl
    (between level true (items.map write) ++ ']' :: rest) position
  obtain ⟨after, taken⟩ := list_recovers write starts recovers rest middle
  rw [toList_render_array]
  exact ⟨after, (begun _).trans taken⟩

end Json.Reader

/-! ## Templates and documents are read back -/

theorem Schema.Sound.decode_node {node : Node} (sound : Sound .node (.ofNode node)) :
    Node.decode node.toJson = .ok node := by
  obtain ⟨other, decoded, same⟩ := map_eq_ok_iff.mp sound.decode_toJson
  rw [Piece.ofNode_injective same, Piece.toJson_ofNode] at decoded
  exact decoded

theorem Schema.Sound.proper_node {node : Node} (sound : Sound .node (.ofNode node)) :
    node.toJson.Proper :=
  Piece.toJson_ofNode node ▸ sound.proper

/-- What a template does with a member that it has no use for. -/
def BodyDraft.keep (draft : BodyDraft) (key : String) (value : Json) : BodyDraft :=
  { draft with extra := Members.assign key value draft.extra }

theorem Template.member_of_ne {key : String} (differs : key ≠ "body") (depth : Nat)
    (draft : BodyDraft) :
    Template.record.member depth key draft = .ok do return draft.keep key (← value depth) := by
  simp only [Template.record, BodyDraft.keep]

/-- The unread members of a template are gathered as they are. -/
theorem Template.gathers_extra {depth level : Nat} {extra : Members}
    (plain : ∀ member ∈ extra, Plain depth member.2) (proper : ∀ member ∈ extra, member.2.Proper)
    (unread : "body" ∉ extra.map Prod.fst) (draft : BodyDraft)
    (distinct : (draft.extra.map Prod.fst ++ extra.map Prod.fst).Nodup) :
    Gathers (Template.record.member depth) level extra draft
      { draft with extra := draft.extra ++ extra } := by
  induction extra generalizing draft with
  | nil =>
    rw [List.append_nil]
    exact .nil draft
  | cons member extra ih =>
    rcases member with ⟨key, value⟩
    rw [List.map_cons, List.mem_cons, not_or] at unread
    have fresh : key ∉ draft.extra.map Prod.fst := fun old =>
      List.disjoint_of_nodup_append distinct old (List.mem_cons_self ..)
    have kept : draft.keep key value = { draft with extra := draft.extra ++ [(key, value)] } := by
      rw [BodyDraft.keep, Members.assign_of_fresh fresh]
    have here : (Reader.value depth).Recovers (render .pretty level value) value :=
      (plain _ (List.mem_cons_self ..)).recovers (proper _ (List.mem_cons_self ..)) level
    have later := ih (fun member among => plain member (List.mem_cons_of_mem _ among))
      (fun member among => proper member (List.mem_cons_of_mem _ among)) unread.2
      (draft.keep key value) (by rw [kept]; simpa using distinct)
    rw [kept, List.append_assoc, List.singleton_append] at later
    refine .cons (Template.member_of_ne (Ne.symm unread.1) depth draft) ?_ later
    rw [← kept]
    exact here.map (draft.keep key)

/-- A sound template is read back from what is written for it. -/
theorem Template.read_recovers {template : Template} (sound : Sound .template (.ofTemplate template))
    {depth : Nat} (plain : Plain depth template.toJson) (level : Nat) :
    (Template.record.read depth).Recovers (render .pretty level template.toJson) template := by
  cases sound with
  | entity allowed apart proper each =>
    have nodes : Sound .nodes (.ofList .ofNode template.body) :=
      each ⟨"body", .required, .nodes⟩ (List.mem_singleton_self _) _ rfl
    have node : ∀ item ∈ template.body, Sound .node (.ofNode item) := fun item among =>
      nodes.item rfl (List.mem_map_of_mem among)
    have unread : "body" ∉ template.extra.map Prod.fst := fun among =>
      apart.unread "body" among (List.mem_singleton_self _)
    rw [Template.toJson, Piece.listToJson_nodes] at plain ⊢
    cases plain with
    | @object depth _ each =>
      cases each _ (List.mem_cons_self ..) with
      | @array depth _ items =>
        have inner : ∀ item ∈ template.body, Plain depth item.toJson := fun item among =>
          items _ (List.mem_map_of_mem among)
        have body := listOf_recovers Node.toJson
          (fun item among => (inner item among).starts (level + 2))
          (fun item among => decoded_recovers (inner item among) (node item among).proper_node
            (node item among).decode_node (level + 2))
        have others : Gathers (Template.record.member (depth + 1)) (level + 1) template.extra
            ⟨some template.body, []⟩ ⟨some template.body, template.extra⟩ :=
          Template.gathers_extra (fun member among => each member (List.mem_cons_of_mem _ among))
            proper unread _ apart.distinct
        exact Record.recovers (.cons rfl (body.map fun nodes => BodyDraft.mk (some nodes) []) others)
          rfl

/-- A document with a sound template is read back from the text of its file. -/
theorem Document.parse_toFileText {document : Document}
    (sound : Sound .template (.ofTemplate document.template))
    (plain : Plain depthLimit document.toJson) :
    Document.parse document.toFileText = .ok document := by
  refine readText_pretty ?_
  generalize depthLimit = limit at plain ⊢
  unfold Document.toJson at plain ⊢
  cases plain with
  | @object depth _ each =>
    have template := Template.read_recovers sound
      (each ("template", document.template.toJson) (by simp)) 1
    refine Record.recovers (.cons rfl ((text_recovers 1 document.filePath).map fun path =>
      Document.Draft.mk (some path) none) (.cons rfl (template.map fun template =>
        Document.Draft.mk (some document.filePath) (some template)) (.nil _))) rfl

/-! ## Templates that are read or fixed are sound -/

namespace Json.Reader

theorem Yields.bind {β : Type} {P : α → Prop} {Q : β → Prop} {read : Reader α}
    {next : α → Reader β} (first : Yields P read) (rest : ∀ a, P a → Yields Q (next a)) :
    Yields Q (read >>= next) :=
  Refines.bind first fun a _ both => both.1 ▸ rest a both.2

theorem Yields.placeLoop {P : σ → Prop} (short : Nat → DecodeError) {places : List (Place σ)}
    (each : ∀ place ∈ places, ∀ gathered, P gathered → Yields P (place.read gathered)) (at_ : Nat)
    {gathered : σ} (holds : P gathered) : Yields P (Reader.placeLoop short at_ places gathered) := by
  induction places generalizing at_ gathered with
  | nil => exact Refines.pure ⟨rfl, holds⟩
  | cons place rest ih =>
    refine Refines.bind_same _ fun more => ?_
    split_ifs
    · exact (each place (List.mem_cons_self ..) gathered holds).bind fun next kept =>
        ih (fun place among => each place (List.mem_cons_of_mem _ among)) (at_ + 1) kept
    · exact ih (fun place among => each place (List.mem_cons_of_mem _ among)) (at_ + 1) holds
    · exact Refines.of_stops fun _ => ⟨_, rfl⟩

/-- What the readers of members and places keep holds at the end of a record. -/
theorem Record.yields {shape : Record σ α} {P : σ → Prop} {Q : α → Prop} (start : P shape.start)
    (member : ∀ depth name gathered, P gathered → ∀ read,
      shape.member depth name gathered = .ok read → Yields P read)
    (places : ∀ list, shape.places = some list → ∀ depth, ∀ place ∈ list depth, ∀ gathered,
      P gathered → Yields P (place.read gathered))
    (finish : ∀ gathered, P gathered → ∀ a, shape.finish gathered = .ok a → Q a) (depth : Nat) :
    Yields Q (shape.read depth) := by
  refine Refines.bind_same _ fun _ => Refines.bind_same _ fun seen => ?_
  split
  · split
    · exact Refines.of_stops fun _ => ⟨_, rfl⟩
    · next depth =>
      refine fields_refines (fun gathered others => gathered = others ∧ P gathered) ?_ ⟨rfl, start⟩ ?_
      · rintro name gathered _ ⟨rfl, holds⟩ read calls
        exact ⟨read, calls, member depth name gathered holds read calls⟩
      · rintro gathered _ ⟨rfl, holds⟩ a finished
        exact ⟨a, finished, rfl, finish gathered holds a finished⟩
  · split
    · exact Refines.of_stops (wrongType_stops _)
    · exact Refines.of_stops fun _ => ⟨_, rfl⟩
    · next list depth given =>
      refine Refines.placing (Refines.bind_same _ fun _ => ?_) _ _
      refine (Yields.placeLoop _ (places list given depth) 0 start).bind fun gathered holds => ?_
      refine Refines.bind_same _ fun _ => ?_
      split
      · next a finished => exact Refines.pure ⟨rfl, finish gathered holds a finished⟩
      · exact Refines.of_stops fun _ => ⟨_, rfl⟩
  · exact Refines.of_stops (wrongType_stops _)

end Json.Reader

theorem Template.read_sound (depth : Nat) :
    Yields (fun template => Sound .template (.ofTemplate template))
      (Template.record.read depth) := by
  intro cursor template after taken
  obtain ⟨raw, read, decoded⟩ := Template.read_refines depth cursor template after taken
  have proper := (value_proper depth).answers cursor raw after read
  exact ⟨template, taken, rfl, decode_sound proper (map_eq_ok_iff.mpr ⟨template, decoded, rfl⟩)⟩

/-- A draft of a document has no template but a sound one. -/
def Document.Draft.Sound (draft : Document.Draft) : Prop :=
  ∀ template, draft.template = some template → Schema.Sound .template (.ofTemplate template)

theorem Document.Draft.readPath_sound {draft : Document.Draft} (sound : draft.Sound) :
    Yields Document.Draft.Sound draft.readPath :=
  Refines.bind_same _ fun _ => Refines.pure ⟨rfl, sound⟩

theorem Document.Draft.readTemplate_sound (depth : Nat) (draft : Document.Draft) :
    Yields Document.Draft.Sound (draft.readTemplate depth) := by
  refine (Template.read_sound depth).bind fun template sound => Refines.pure ⟨rfl, ?_⟩
  rintro _ ⟨⟩
  exact sound

theorem Document.read_sound (depth : Nat) :
    Yields (fun document => Sound .template (.ofTemplate document.template))
      (Document.record.read depth) := by
  have start : Document.record.start.Sound := by
    rintro _ ⟨⟩
  refine Record.yields start ?_ ?_ ?_ depth
  · intro depth name draft sound read calls
    simp only [Document.record] at calls
    split at calls
    · rw [once_eq_ok calls]
      exact Document.Draft.readPath_sound sound
    · rw [once_eq_ok calls]
      exact Document.Draft.readTemplate_sound depth draft
    · obtain rfl := Except.ok.inj calls
      exact Refines.bind_same _ fun _ => Refines.pure ⟨rfl, sound⟩
  · rintro list ⟨⟩ depth place among draft sound
    rcases List.mem_cons.mp among with rfl | among
    · exact Document.Draft.readPath_sound sound
    · rw [List.mem_singleton.mp among]
      exact Document.Draft.readTemplate_sound depth draft
  · intro draft sound document finished
    obtain ⟨path, _, rest⟩ := bind_eq_ok_iff.mp finished
    obtain ⟨template, found, built⟩ := bind_eq_ok_iff.mp rest
    obtain rfl := Except.ok.inj built
    exact sound template (required_eq_ok_iff.mp found)

theorem Document.parse_sound {text : String} {document : Document}
    (parsed : Document.parse text = .ok document) :
    Sound .template (.ofTemplate document.template) := by
  obtain ⟨after, taken, _⟩ := readText_eq_ok_iff.mp parsed
  exact (Document.read_sound depthLimit).answers _ _ _ taken

/-- A document that was read from a file, and perhaps fixed since. -/
inductive Document.Obtained : Document → Prop where
  | read {disk : Disk} {path : Path} {document : Document}
      (loaded : Document.load disk path = .ok document) : Document.Obtained document
  | fixed {document : Document} (obtained : Document.Obtained document) (rule : Rule)
      (catalog : Catalog) (disk : Disk) :
      Document.Obtained (rule.lint (.fix catalog) document disk).1

theorem Document.Obtained.sound {document : Document} (obtained : document.Obtained) :
    Sound .template (.ofTemplate document.template) := by
  induction obtained with
  | read loaded =>
    obtain ⟨text, _, parsed⟩ := bind_eq_ok_iff.mp loaded
    exact Document.parse_sound (mapError_eq_ok_iff.mp parsed)
  | @fixed document _ rule catalog disk sound =>
    rcases ran : rule.lint (.fix catalog) document disk with ⟨fixed, outcome, after⟩
    obtain ⟨fixes, fixedBy⟩ := Rule.lint_fixedBy ran
    rw [fixedBy.rewritten]
    exact sound.template_rewrite _

/-- A document that was read, or read and fixed, is read from its file exactly as it was written,
if it has no reals and does not nest too deep. -/
theorem Document.load_save {document : Document} (obtained : document.Obtained)
    (plain : Plain depthLimit document.toJson) :
    Document.parse document.toFileText = .ok document ∧
      ∀ disk path after, document.save disk path = .ok after →
        Document.load after path = .ok document := by
  have parsed := Document.parse_toFileText obtained.sound plain
  refine ⟨parsed, fun disk path after saved => ?_⟩
  have read := Disk.readText_of_writeText (mapError_eq_ok_iff.mp saved)
  exact bind_eq_ok_iff.mpr ⟨_, mapError_eq_ok_iff.mpr read, mapError_eq_ok_iff.mpr parsed⟩

namespace Session.Sample

/-- A document with members that nobody reads. -/
def annotated : String :=
  "\x7b\"filePath\":\"app/a.hbs\",\"template\":\x7b\"version\":3,\"body\":[\x7b\"raw\":[-7,null]," ++
    "\"type\":\"TextNode\",\"chars\":\"Hi\",\"loc\":[1,2]\x7d]\x7d\x7d"

/-- The disk with a document that has members that nobody reads. -/
def annotatedDisk : Disk := disk.put ["a.ast.json"] (.file (.text annotated) .full)

/-- What is written for the document after its text is replaced, without blanks. -/
def annotatedFixed : String :=
  "\x7b\"filePath\":\"app/a.hbs\",\"template\":\x7b\"body\":[\x7b\"type\":\"TextNode\"," ++
    "\"chars\":\"\x7b\x7bt \\\"a.Hi\\\"\x7d\x7d\",\"loc\":\x7b\"line\":1,\"column\":2\x7d," ++
      "\"raw\":[-7,null]\x7d],\"version\":3\x7d\x7d"

end Session.Sample

open Session Sample in
/-- A document is loaded, its text is replaced, and it is read back as it was written. -/
theorem Document.load_save_annotated :
    ∃ document fixed after, Document.load annotatedDisk ⟨"/a.ast.json"⟩ = .ok document ∧
      (rule.lint (.fix session.catalog) document annotatedDisk).1 = fixed ∧
        fixed.toJson.compact = annotatedFixed ∧
          fixed.save annotatedDisk ⟨"/a.ast.json"⟩ = .ok after ∧
            Document.load after ⟨"/a.ast.json"⟩ = .ok fixed := by
  have facts : ((Document.load annotatedDisk ⟨"/a.ast.json"⟩).toOption.map fun document =>
      let fixed := (rule.lint (.fix session.catalog) document annotatedDisk).1
      (fixed.toJson.compact, decide (Plain depthLimit fixed.toJson))) =
      some (annotatedFixed, true) := by
    decide +kernel
  have found : annotatedDisk.find ⟨"/a.ast.json"⟩ =
      .ok (.present ["a.ast.json"] (.file (.text annotated) .full)) := by
    decide +kernel
  cases loaded : Document.load annotatedDisk ⟨"/a.ast.json"⟩ with
  | error error => simp [loaded, Except.toOption] at facts
  | ok document =>
    simp only [loaded, Except.toOption, Option.map_some, Option.some.injEq, Prod.mk.injEq,
      decide_eq_true_eq] at facts
    obtain ⟨written, plain⟩ := facts
    have saved (fixed : Document) : fixed.save annotatedDisk ⟨"/a.ast.json"⟩ =
        .ok (annotatedDisk.put ["a.ast.json"] (.file (.text fixed.toFileText) .full)) :=
      mapError_eq_ok_iff.mpr (Disk.writeText_of_find found fixed.toFileText)
    have obtained : Document.Obtained (rule.lint (.fix session.catalog) document annotatedDisk).1 :=
      .fixed (.read loaded) rule session.catalog annotatedDisk
    exact ⟨document, _, _, rfl, rfl, written, saved _,
      (Document.load_save obtained plain).2 _ _ _ (saved _)⟩

end TemplateLint
