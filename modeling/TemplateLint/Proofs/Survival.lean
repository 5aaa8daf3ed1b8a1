import Mathlib
import TemplateLint.Proofs.Files
import TemplateLint.Proofs.Normalizing
import TemplateLint.Proofs.Outline
import TemplateLint.Proofs.RoundTrip

/-! # What survives of a document

A value survives in another one if each of its members is found again at the same place, except for
those that may be left out when they are null. A document that is read and written again survives
once it is trimmed: the members of the document itself and of its locations that nobody reads are
lost, and everything else is there.
-/

namespace TemplateLint

open Json Json.Reader Schema

namespace Json

/-- A member that is null where something optional may be left out. -/
def Lapses (key : String) (value : Json) : Prop :=
  (key = "loc" ∨ key = "inverse") ∧ value = .null

/-- A value is found again in another one, up to members that lapse. -/
inductive Survives : Json → Json → Prop where
  | null : Survives .null .null
  | bool (value : Bool) : Survives (.bool value) (.bool value)
  | number (value : Json.Number) : Survives (.number value) (.number value)
  | string (text : String) : Survives (.string text) (.string text)
  | array {items others : List Json} (length : items.length = others.length)
      (each : ∀ (i : Nat) (item other : Json), items[i]? = some item → others[i]? = some other →
        Survives item other) : Survives (.array items) (.array others)
  | object {members others : Members}
      (kept : ∀ key value, members.get? key = some value → ¬ Lapses key value →
        key ∈ others.map Prod.fst)
      (each : ∀ key value other, members.get? key = some value → ¬ Lapses key value →
        others.get? key = some other → Survives value other) :
      Survives (.object members) (.object others)

namespace Survives

variable {value other third : Json} {members others : Members}

theorem of_get? (found : ∀ key value, members.get? key = some value → ¬ Lapses key value →
      ∃ other, others.get? key = some other ∧ Survives value other) :
    Survives (.object members) (.object others) := by
  refine .object (fun key value present stays => ?_) fun key value other present stays there => ?_
  · obtain ⟨other, there, _⟩ := found key value present stays
    exact List.mem_map_of_mem (Members.mem_of_get? there)
  · obtain ⟨same, there', survives⟩ := found key value present stays
    obtain rfl := Option.some.inj (there'.symm.trans there)
    exact survives

theorem get? (survives : Survives (.object members) (.object others)) {key : String}
    (present : members.get? key = some value) (stays : ¬ Lapses key value) :
    ∃ other, others.get? key = some other ∧ Survives value other := by
  cases survives with
  | object kept each =>
    have found : others.get? key ≠ none := fun absent =>
      Members.get?_eq_none_iff.mp absent (kept key value present stays)
    obtain ⟨other, there⟩ := Option.ne_none_iff_exists'.mp found
    exact ⟨other, there, each key value other present stays there⟩

theorem of_map {items : List Json} {first second : Json → Json}
    (each : ∀ item ∈ items, Survives (first item) (second item)) :
    Survives (.array (items.map first)) (.array (items.map second)) := by
  refine .array (by simp) fun i item other here there => ?_
  rw [List.getElem?_map, Option.map_eq_some_iff] at here there
  obtain ⟨given, given_i, rfl⟩ := here
  obtain ⟨same, same_i, rfl⟩ := there
  obtain rfl := Option.some.inj (given_i.symm.trans same_i)
  exact each given (List.mem_of_getElem? given_i)

theorem refl (value : Json) : Survives value value := by
  induction value using Json.induction with
  | step value ih =>
    cases value with
    | null => exact .null
    | bool value => exact .bool value
    | number value => exact .number value
    | string text => exact .string text
    | array items =>
      refine .array rfl fun i item other here there => ?_
      obtain rfl := Option.some.inj (here.symm.trans there)
      exact ih item (List.mem_of_getElem? here)
    | object members =>
      exact of_get? fun key value present _ => ⟨value, present, ih value (mem_children_of_get? present)⟩

/-- Only a null survives as a null. -/
theorem lapses (survives : Survives value other) {key : String} (lapses : Lapses key other) :
    Lapses key value := by
  obtain ⟨optional, rfl⟩ := lapses
  cases survives
  exact ⟨optional, rfl⟩

theorem trans (first : Survives value other) (second : Survives other third) :
    Survives value third := by
  induction first generalizing third with
  | array length each ih =>
    cases second with
    | array length' each' =>
      refine .array (length.trans length') fun i item other here there => ?_
      have inside : i < _ := (List.getElem?_eq_some_iff.mp here).1
      have between := List.getElem?_eq_getElem (length ▸ inside)
      exact ih i item _ here between (each' i _ other between there)
  | object kept each ih =>
    cases second with
    | object kept' each' =>
      refine of_get? fun key value present stays => ?_
      obtain ⟨middle, between, survives⟩ := (object kept each).get? present stays
      obtain ⟨last, there, survives'⟩ :=
        (object kept' each').get? between fun gone => stays (survives.lapses gone)
      exact ⟨last, there, ih key value middle present stays between survives'⟩
  | _ => exact second

end Survives

theorem Same.survives {value other : Json} (same : Same value other) : Survives value other := by
  induction same with
  | null => exact .null
  | bool value => exact .bool value
  | number value => exact .number value
  | string text => exact .string text
  | array length _ ih => exact .array length ih
  | object _ _ keys _ ih =>
    refine .object (fun key value present _ => ?_) fun key value other here _ there =>
      ih key value other here there
    exact (keys key).mp (List.mem_map_of_mem (Members.mem_of_get? present))

end Json

/-! ## Templates -/

namespace Schema

/-- A value without the members of its locations that nobody reads. -/
def trim : Shape → Json → Json := rework fun _ members => members

variable {shape : Shape} {kind : Kind} {members : Members} {value : Json}

theorem Kind.name_of_optional {field : Field} (declared : field ∈ kind.fields)
    (optional : field.need = .optional) : field.name = "loc" ∨ field.name = "inverse" := by
  have all : ∀ field ∈ kind.fields, field.need = .optional →
      field.name = "loc" ∨ field.name = "inverse" := by
    cases kind <;> decide
  exact all field declared optional

/-- A member that does not lapse is there in normal form. -/
theorem get?_normal_of_present (distinct : (members.map Prod.fst).Nodup) {key : String}
    (present : members.get? key = some value) (stays : ¬ Lapses key value) :
    Members.get? (complete kind (reworkMembers complete kind members)) key =
      some (reworkMember complete kind key value) := by
  rw [get?_normal distinct, present]
  cases found : kind.field? key with
  | none => simp only [reworkMember, found]
  | some field =>
    obtain ⟨declared, rfl⟩ := Kind.field?_eq_some found
    have given : ¬ (field.need = .optional ∧ value = .null) := fun null =>
      stays ⟨Kind.name_of_optional declared null.1, null.2⟩
    simp only [reworkMember, found, Input.ofField_of_given given]
    rfl

theorem lapses_reworkMember {finish : Kind → Members → Members} {key : String}
    (lapses : Lapses key value) : Lapses key (reworkMember finish kind key value) := by
  obtain ⟨optional, rfl⟩ := lapses
  refine ⟨optional, ?_⟩
  unfold reworkMember
  split
  · exact rework_null
  · rfl

/-- A trimmed value survives in normal form. -/
theorem trim_survives (proper : value.Proper) (shape : Shape) :
    Survives (trim shape value) (normal shape value) := by
  induction value using Json.induction generalizing shape with
  | step value ih =>
    rcases rework_cases shape value with
      layout | ⟨item, values, layout, rfl⟩ | ⟨members, kind, rfl, known⟩ | same
    · rw [trim, normal, rework_location layout, rework_location layout]
      exact .refl _
    · rw [trim, normal, rework_list layout, rework_list layout]
      exact .of_map fun child among => ih child among (proper.of_mem_children among) item
    · rw [trim, normal, rework_entity known, rework_entity known]
      refine .of_get? fun key value present stays => ?_
      rw [get?_reworkMembers, Option.map_eq_some_iff] at present
      obtain ⟨child, present, rfl⟩ := present
      refine ⟨_, get?_normal_of_present proper.distinct present
        fun gone => stays (lapses_reworkMember gone), ?_⟩
      unfold reworkMember
      split
      · exact ih child (mem_children_of_get? present) (proper.of_get? present) _
      · exact .refl child
    · rw [trim, normal, same, same]
      exact .refl value

/-- What survives in normal form survives trimming. -/
theorem survives_trim (proper : value.Proper) (survives : Survives value (normal shape value)) :
    Survives value (trim shape value) := by
  induction value using Json.induction generalizing shape with
  | step value ih =>
    rcases rework_cases shape value with
      layout | ⟨item, values, layout, rfl⟩ | ⟨members, kind, rfl, known⟩ | same
    · rw [normal, rework_location layout] at survives
      rw [trim, rework_location layout]
      exact survives
    · rw [normal, rework_list layout] at survives
      rw [trim, rework_list layout]
      cases survives with
      | array length each =>
        refine .array (by simp) fun i child other here there => ?_
        rw [List.getElem?_map, here, Option.map_some, Option.some.injEq] at there
        obtain rfl := there
        have among := List.mem_of_getElem? here
        have normal_i : (values.map (rework complete item))[i]? = some (normal item child) := by
          rw [List.getElem?_map, here]
          rfl
        exact ih child among (proper.of_mem_children among) (each i child _ here normal_i)
    · rw [normal, rework_entity known] at survives
      rw [trim, rework_entity known]
      refine .of_get? fun key child present stays => ?_
      refine ⟨_, by rw [get?_reworkMembers, present]; rfl, ?_⟩
      obtain ⟨other, there, survives⟩ := survives.get? present stays
      obtain rfl := Option.some.inj
        ((get?_normal_of_present proper.distinct present stays).symm.trans there)
      unfold reworkMember at survives ⊢
      split at survives
      · exact ih child (mem_children_of_get? present) (proper.of_get? present) survives
      · exact survives
    · rw [trim, same]
      exact .refl value

end Schema

/-! ## Documents -/

namespace Document

/-- The value of a member of a document without what nobody reads. -/
def trimMember (key : String) (value : Json) : Json :=
  if key = "template" then trim .template value else value

/-- A document without the members that nobody reads: as an object of a path and a template. -/
def trimmed : Json → Json
  | .array [path, template] => .object [("filePath", path), ("template", trim .template template)]
  | .object members => .object ((members.filter fun member => member.1 ∈ names).map fun member =>
      (member.1, trimMember member.1 member.2))
  | value => value

theorem trimmed_pruned (value : Json) : trimmed (pruned value) = trimmed value := by
  cases value with
  | object members => simp [pruned, trimmed, List.filter_filter]
  | _ => rfl

theorem get?_trimmed (members : Members) (key : String) :
    Members.get? ((members.filter fun member => member.1 ∈ names).map fun member =>
        (member.1, trimMember member.1 member.2)) key =
      if key ∈ names then (members.get? key).map (trimMember key) else none := by
  rw [Members.get?_map, Members.get?_filter fun key => key ∈ names]
  by_cases used : key ∈ names <;> simp [used]

variable {document : Document} {raw whole seen : Json}

theorem toJson_eq (document : Document) : document.toJson =
    .object [("filePath", .string document.filePath), ("template", document.template.toJson)] := rfl

theorem toJson_proper (sound : Sound .template (.ofTemplate document.template)) :
    document.toJson.Proper := by
  have proper : document.template.toJson.Proper := sound.proper
  rw [toJson_eq]
  exact .object (by simp) (by simp [proper, Proper.string])

theorem same_template (proper : raw.Proper) (decoded : Template.decode raw = .ok document.template) :
    Json.Same document.template.toJson (normal .template raw) :=
  have piece : Shape.template.decode raw = .ok (.ofTemplate document.template) :=
    map_eq_ok_iff.mpr ⟨document.template, decoded, rfl⟩
  same_normal proper piece

theorem template_survives (proper : raw.Proper)
    (decoded : Template.decode raw = .ok document.template) :
    Survives (trim .template raw) document.template.toJson :=
  (trim_survives proper .template).trans (same_template proper decoded).symm.survives

/-- A document that is trimmed survives. -/
theorem Outlined.survives (outlined : Outlined document seen) :
    Survives (trimmed seen) document.toJson := by
  rw [toJson_eq]
  cases outlined with
  | @object members raw proper used path template decoded =>
    refine .of_get? fun key value present _ => ?_
    rw [get?_trimmed] at present
    split_ifs at present with known
    obtain ⟨given, there, rfl⟩ := Option.map_eq_some_iff.mp present
    rcases List.mem_cons.mp known with rfl | known
    · obtain rfl := Option.some.inj (path.symm.trans there)
      exact ⟨_, rfl, .refl _⟩
    · obtain rfl := List.mem_singleton.mp known
      obtain rfl := Option.some.inj (template.symm.trans there)
      exact ⟨_, rfl, template_survives (proper.of_get? template) decoded⟩
  | @array raw proper decoded =>
    refine .of_get? fun key value present _ => ?_
    rw [Members.get?_cons, Members.get?_cons, Members.get?_nil] at present
    split_ifs at present with path template
    · subst path
      obtain rfl := Option.some.inj present
      exact ⟨_, rfl, .refl _⟩
    · subst template
      obtain rfl := Option.some.inj present
      exact ⟨_, rfl, template_survives proper decoded⟩

/-- A document survives as a whole only if it survives being trimmed. -/
theorem Outlined.survives_trimmed (outlined : Outlined document (pruned whole))
    (survives : Survives whole document.toJson) : Survives whole (trimmed whole) := by
  rw [toJson_eq] at survives
  cases whole with
  | object members =>
    refine .of_get? fun key value present stays => ?_
    obtain ⟨other, there, survives⟩ := survives.get? present stays
    rw [get?_trimmed, present]
    rw [Members.get?_cons, Members.get?_cons, Members.get?_nil] at there
    split_ifs at there with path template
    · subst path
      exact ⟨value, rfl, .refl value⟩
    · subst template
      obtain rfl := Option.some.inj there
      refine ⟨_, rfl, ?_⟩
      cases outlined with
      | @object _ raw proper _ _ given decoded =>
        have good := proper.of_get? given
        rw [Members.get?_filter fun key => key ∈ names, if_pos (by decide), present] at given
        obtain rfl := Option.some.inj given
        exact survives_trim good (survives.trans (same_template good decoded).survives)
  | _ => cases survives

/-- A document that is read and written again loses what nobody reads of the document itself and of
its locations, and nothing else: its outline survives once it is trimmed. If its text is read as a
value, that value survives as a whole just if it survives being trimmed. -/
theorem saved_survives {disk : Disk} {path : Path} (loaded : Document.load disk path = .ok document) :
    (∀ other target after, document.save other target = .ok after →
      after.readText target = .ok (document.toJson.pretty ++ "\n")) ∧
    (Plain depthLimit document.toJson →
      Json.parse (document.toJson.pretty ++ "\n") = .ok document.toJson) ∧
    ∃ text seen, disk.readText path = .ok text ∧
      readText (outline depthLimit) text = .ok seen ∧
      Survives (trimmed seen) document.toJson ∧
      ∀ whole, Json.parse text = .ok whole → trimmed whole = trimmed seen ∧
        (Survives whole document.toJson ↔ Survives whole (trimmed whole)) := by
  obtain ⟨text, read, parsed⟩ := bind_eq_ok_iff.mp loaded
  replace parsed := mapError_eq_ok_iff.mp parsed
  refine ⟨fun other target after saved => ?_, fun plain => ?_, text, ?_⟩
  · exact Disk.readText_of_writeText (mapError_eq_ok_iff.mp saved)
  · exact readText_pretty (plain.recovers (toJson_proper (parse_sound parsed)) 0)
  obtain ⟨seen, outlinedText, outlined⟩ := (read_refines_outline depthLimit).readText parsed
  refine ⟨seen, mapError_eq_ok_iff.mp read, outlinedText, outlined.survives, fun whole given => ?_⟩
  obtain ⟨same, seenText, rfl⟩ := (value_refines_outline depthLimit).readText given
  obtain rfl := Except.ok.inj (outlinedText.symm.trans seenText)
  refine ⟨(trimmed_pruned whole).symm, outlined.survives_trimmed, fun survives => ?_⟩
  refine survives.trans ?_
  rw [← trimmed_pruned]
  exact outlined.survives

end Document

namespace Session.Sample

/-- A document with remarks: on itself, on its text and on the location of its text. -/
def remarked : String :=
  "\x7b\"filePath\":\"app/a.hbs\",\"by\":\"me\",\"template\":\x7b\"body\":[\x7b\"type\":" ++
    "\"TextNode\",\"chars\":\"Hi\",\"note\":1,\"loc\":\x7b\"line\":1,\"column\":2,\"end\":4\x7d\x7d]\x7d\x7d"

/-- The disk with a document with remarks. -/
def remarkedDisk : Disk := disk.put ["a.ast.json"] (.file (.text remarked) .full)

/-- The document without the remarks that are lost. -/
def remarkedTrimmed : String :=
  "\x7b\"filePath\":\"app/a.hbs\",\"template\":\x7b\"body\":[\x7b\"type\":\"TextNode\"," ++
    "\"chars\":\"Hi\",\"note\":1,\"loc\":\x7b\"line\":1,\"column\":2\x7d\x7d]\x7d\x7d"

end Session.Sample

open Session.Sample in
/-- The remark on the text survives; those on the document and on the location do not. -/
theorem Document.saved_survives_remarked :
    ∃ document whole, Document.load remarkedDisk ⟨"/a.ast.json"⟩ = .ok document ∧
      Json.parse remarked = .ok whole ∧ (trimmed whole).compact = remarkedTrimmed ∧
        Survives (trimmed whole) document.toJson ∧ ¬ Survives whole document.toJson := by
  have facts : ((Json.parse remarked).toOption.map fun whole =>
      ((trimmed whole).compact, (whole.get? "by").isSome)) = some (remarkedTrimmed, true) := by
    decide +kernel
  have loads : (Document.load remarkedDisk ⟨"/a.ast.json"⟩).toOption.isSome = true := by
    decide +kernel
  have found : (remarkedDisk.readText ⟨"/a.ast.json"⟩).toOption = some remarked := by
    decide +kernel
  cases loaded : Document.load remarkedDisk ⟨"/a.ast.json"⟩ with
  | error error => simp [loaded, Except.toOption] at loads
  | ok document =>
    cases parsed : Json.parse remarked with
    | error fault => simp [parsed, Except.toOption] at facts
    | ok whole =>
      simp only [parsed, Except.toOption, Option.map_some, Option.some.injEq, Prod.mk.injEq] at facts
      obtain ⟨_, _, text, seen, read, _, survives, exactly⟩ := Document.saved_survives loaded
      simp only [read, Except.toOption, Option.some.injEq] at found
      subst found
      obtain ⟨same, _⟩ := exactly whole parsed
      refine ⟨document, whole, rfl, rfl, facts.1, same ▸ survives, fun survives => ?_⟩
      obtain ⟨remark, present⟩ := Option.isSome_iff_exists.mp facts.2
      cases survives with
      | object kept _ =>
        have stays : ¬ Lapses "by" remark := fun lapses => absurd lapses.1 (by decide)
        exact absurd (kept "by" remark present stays) (by simp)

end TemplateLint
