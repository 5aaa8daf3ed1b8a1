import Mathlib
import TemplateLint.Proofs.Extents
import TemplateLint.Proofs.RawReading

/-! # The outline of a document

A document passes over the members that it has no use for, and what is passed over need not be a
value that could be read. The outline of a text is what is left of its value then. Every document
has an outline from which it is decoded, and the outline of a value is the value without the members
that are passed over.
-/

namespace TemplateLint

open Json Json.Reader Schema

namespace Document

/-- The names of the members that a document has a use for. -/
def names : List String := ["filePath", "template"]

/-- How a member is read for the outline. -/
def outlineMember (depth : Nat) (name : String) (gathered : Members) :
    Except DecodeError (Reader Members) :=
  if name ∈ names then member (value depth) name gathered else ignored gathered

/-- A value, without the members that a document passes over. -/
def outline (depth : Nat) : Reader Json := do
  blanks
  match ← peek with
  | some '\x7b' =>
    match depth with
    | 0 => failAhead .tooDeep
    | depth + 1 => fields (outlineMember depth) [] fun gathered => .ok (.object gathered.reverse)
  | _ => value depth

/-- A value without the members that a document passes over. -/
def pruned : Json → Json
  | .object members => .object (members.filter fun member => member.1 ∈ names)
  | value => value

end Document

namespace Json.Reader

theorem value_skipBlanks (depth : Nat) (cursor : Cursor) :
    value depth cursor.skipBlanks = value depth cursor := by
  cases depth with
  | zero => exact blanks_bind_skipBlanks _ cursor
  | succ depth => exact blanks_bind_skipBlanks _ cursor

theorem value_bracket {cursor : Cursor} (bracket : cursor.skipBlanks.rest.head? = some '[')
    (depth : Nat) :
    value (depth + 1) cursor = (do return Json.array (← list (value depth))) cursor.skipBlanks := by
  have passed : blanks cursor = .ok ((), cursor.skipBlanks) := rfl
  have peeked : peek cursor.skipBlanks = .ok (some '[', cursor.skipBlanks) :=
    congrArg (fun seen => Except.ok (seen, cursor.skipBlanks)) bracket
  exact (bind_ok passed).trans (bind_ok peeked)

/-- Only an opening bracket starts an object. -/
theorem brace_of_valueWith {inner : Option (Reader Json)} {cursor after : Cursor} {members : Members}
    (taken : valueWith inner cursor = .ok (.object members, after)) :
    cursor.skipBlanks.rest.head? = some '\x7b' := by
  obtain ⟨_, _, ⟨⟩, begun⟩ := bind_ok_iff.mp taken
  obtain ⟨_, _, ⟨⟩, seen⟩ := bind_ok_iff.mp begun
  generalize cursor.skipBlanks.rest.head? = next at seen ⊢
  split at seen
  · cases seen
  · obtain ⟨_, _, _, named⟩ := bind_ok_iff.mp seen
    obtain ⟨_, _, _, built⟩ := bind_ok_iff.mp named
    cases built
  · obtain ⟨_, _, _, named⟩ := bind_ok_iff.mp seen
    obtain ⟨_, _, _, built⟩ := bind_ok_iff.mp named
    cases built
  · obtain ⟨_, _, _, named⟩ := bind_ok_iff.mp seen
    obtain ⟨_, _, _, built⟩ := bind_ok_iff.mp named
    cases built
  · obtain ⟨_, _, _, quoted⟩ := bind_ok_iff.mp seen
    obtain ⟨_, _, _, built⟩ := bind_ok_iff.mp quoted
    cases built
  · split at seen
    · cases seen
    · obtain ⟨_, _, _, built⟩ := bind_ok_iff.mp seen
      cases built
  · rfl
  · split_ifs at seen
    · obtain ⟨_, _, _, built⟩ := bind_ok_iff.mp seen
      cases built
    · cases seen

theorem brace_of_value {depth : Nat} {cursor after : Cursor} {members : Members}
    (taken : value depth cursor = .ok (.object members, after)) :
    cursor.skipBlanks.rest.head? = some '\x7b' := by
  cases depth with
  | zero => exact brace_of_valueWith taken
  | succ depth => exact brace_of_valueWith taken

end Json.Reader

namespace Document

theorem outline_of_ne {depth : Nat} {cursor : Cursor}
    (plain : cursor.skipBlanks.rest.head? ≠ some '\x7b') : outline depth cursor = value depth cursor := by
  rw [← value_skipBlanks]
  change (match cursor.skipBlanks.rest.head? with | some '\x7b' => _ | _ => _ : Reader Json) _ = _
  generalize cursor.skipBlanks.rest.head? = next at plain ⊢
  split
  · exact absurd rfl plain
  · rfl

/-- What the outline has gathered of the members of an object. -/
structure Gathered (gathered others : Members) : Prop where
  distinct : (gathered.map Prod.fst).Nodup
  selected : others.reverse = gathered.reverse.filter fun member => member.1 ∈ names

theorem nodup_assignReversed {gathered : Members} (distinct : (gathered.map Prod.fst).Nodup)
    (name : String) (value : Json) :
    ((Members.assignReversed name value gathered).map Prod.fst).Nodup := by
  rw [← List.nodup_reverse, ← List.map_reverse, Members.reverse_assignReversed distinct]
  exact Members.nodup_assign (by rwa [List.map_reverse, List.nodup_reverse]) name value

theorem Gathered.distinct_others {gathered others : Members} (holds : Gathered gathered others) :
    (others.map Prod.fst).Nodup := by
  rw [← List.nodup_reverse, ← List.map_reverse, holds.selected]
  refine (List.filter_sublist.map Prod.fst).nodup ?_
  rw [List.map_reverse, List.nodup_reverse]
  exact holds.distinct

theorem Gathered.take {gathered others : Members} (holds : Gathered gathered others) {name : String}
    (used : name ∈ names) (value : Json) :
    Gathered (Members.assignReversed name value gathered)
      (Members.assignReversed name value others) where
  distinct := nodup_assignReversed holds.distinct name value
  selected := by
    rw [Members.reverse_assignReversed holds.distinct,
      Members.reverse_assignReversed holds.distinct_others, holds.selected]
    have selected := Members.filter_assign (· ∈ names) gathered.reverse name value
    rw [if_pos (by simpa using used)] at selected
    exact selected.symm

theorem Gathered.pass {gathered others : Members} (holds : Gathered gathered others) {name : String}
    (unused : name ∉ names) (value : Json) :
    Gathered (Members.assignReversed name value gathered) others where
  distinct := nodup_assignReversed holds.distinct name value
  selected := by
    rw [Members.reverse_assignReversed holds.distinct, holds.selected]
    have selected := Members.filter_assign (· ∈ names) gathered.reverse name value
    rw [if_neg (by simpa using unused)] at selected
    exact selected.symm

theorem fields_refines_outline (depth : Nat) :
    Refines (fun whole seen => seen = pruned whole)
      (fields (member (value depth)) [] fun gathered => .ok (.object gathered.reverse))
      (fields (outlineMember depth) [] fun gathered => .ok (.object gathered.reverse)) := by
  refine fields_refines Gathered ?_ ?_ ?_
  · rintro name gathered others holds _ ⟨⟩
    by_cases used : name ∈ names
    · refine ⟨_, if_pos used, (Refines.refl (value depth)).bind ?_⟩
      rintro raw _ rfl
      exact .pure (holds.take used raw)
    · refine ⟨_, if_neg used, ?_⟩
      exact (value_refines_skip depth).bind fun raw _ _ => .pure (holds.pass used raw)
  · exact ⟨List.nodup_nil, rfl⟩
  · rintro gathered others holds _ ⟨⟩
    exact ⟨_, rfl, congrArg Json.object holds.selected⟩

theorem outline_brace {cursor : Cursor} (brace : cursor.skipBlanks.rest.head? = some '\x7b')
    (depth : Nat) :
    outline (depth + 1) cursor = fields (outlineMember depth) []
      (fun gathered => .ok (.object gathered.reverse)) cursor.skipBlanks := by
  change (match cursor.skipBlanks.rest.head? with | some '\x7b' => _ | _ => _ : Reader Json) _ = _
  rw [brace]
  rfl

/-- The outline of a value is the value without the members that a document passes over. -/
theorem value_refines_outline (depth : Nat) :
    Refines (fun whole seen => seen = pruned whole) (value depth) (outline depth) := by
  intro cursor whole after taken
  by_cases brace : cursor.skipBlanks.rest.head? = some '\x7b'
  · cases depth with
    | zero =>
      obtain ⟨_, _, ⟨⟩, begun⟩ := bind_ok_iff.mp taken
      obtain ⟨_, _, ⟨⟩, refused⟩ := bind_ok_iff.mp begun
      rw [brace] at refused
      cases refused
    | succ depth =>
      obtain ⟨_, _, ⟨⟩, begun⟩ := bind_ok_iff.mp taken
      obtain ⟨_, _, ⟨⟩, opened⟩ := bind_ok_iff.mp begun
      rw [brace] at opened
      rw [outline_brace brace]
      exact fields_refines_outline depth _ _ _ opened
  · refine ⟨whole, (outline_of_ne brace).trans taken, ?_⟩
    cases whole with
    | object members => exact absurd (brace_of_value taken) brace
    | _ => rfl

/-! ## Documents have outlines -/

/-- A document was read from a text with an outline: an object with its path and its template, or an
array of the two. -/
inductive Outlined (document : Document) : Json → Prop where
  | object {members : Members} {raw : Json} (proper : Json.Proper (.object members))
      (used : ∀ key ∈ members.map Prod.fst, key ∈ names)
      (path : members.get? "filePath" = some (.string document.filePath))
      (template : members.get? "template" = some raw)
      (decoded : Template.decode raw = .ok document.template) : Outlined document (.object members)
  | array {raw : Json} (proper : raw.Proper)
      (decoded : Template.decode raw = .ok document.template) :
      Outlined document (.array [.string document.filePath, raw])

/-- A draft of a document has what was gathered of its outline. -/
structure Draft.Follows (draft : Draft) (members : Members) : Prop where
  proper : Json.Proper (.object members)
  used : ∀ key ∈ members.map Prod.fst, key ∈ names
  path : ∀ path, draft.filePath = some path → members.get? "filePath" = some (.string path)
  template : ∀ template, draft.template = some template → ∃ raw,
    members.get? "template" = some raw ∧ Template.decode raw = .ok template

theorem Draft.Follows.outlined {draft : Draft} {members : Members} {document : Document}
    (follows : draft.Follows members) (finished : draft.finish = .ok document) :
    Outlined document (.object members) := by
  obtain ⟨path, foundPath, rest⟩ := bind_eq_ok_iff.mp finished
  obtain ⟨template, foundTemplate, built⟩ := bind_eq_ok_iff.mp rest
  obtain rfl := Except.ok.inj built
  obtain ⟨raw, present, decoded⟩ := follows.template template (required_eq_ok_iff.mp foundTemplate)
  exact .object follows.proper follows.used (follows.path path (required_eq_ok_iff.mp foundPath))
    present decoded

theorem mem_names_assign {members : Members} (used : ∀ key ∈ members.map Prod.fst, key ∈ names)
    {name : String} (known : name ∈ names) (raw : Json) :
    ∀ key ∈ (Members.assign name raw members).map Prod.fst, key ∈ names := by
  intro key among
  obtain ⟨member, there, rfl⟩ := List.mem_map.mp among
  rcases Members.mem_assign there with rfl | old
  · exact known
  · exact used _ (List.mem_map_of_mem old)

theorem Draft.Follows.assign_path {draft : Draft} {members : Members}
    (follows : draft.Follows members) (path : String) :
    Draft.Follows { draft with filePath := some path }
      (Members.assign "filePath" (.string path) members) where
  proper := follows.proper.assign (.string path) "filePath"
  used := mem_names_assign follows.used (by decide) _
  path := by
    rintro _ ⟨⟩
    rw [Members.get?_assign, if_pos rfl]
  template template there := by
    rw [Members.get?_assign, if_neg (by decide)]
    exact follows.template template there

theorem Draft.Follows.assign_template {draft : Draft} {members : Members}
    (follows : draft.Follows members) {template : Template} {raw : Json} (proper : raw.Proper)
    (decoded : Template.decode raw = .ok template) :
    Draft.Follows { draft with template := some template }
      (Members.assign "template" raw members) where
  proper := follows.proper.assign proper "template"
  used := mem_names_assign follows.used (by decide) _
  path path there := by
    rw [Members.get?_assign, if_neg (by decide)]
    exact follows.path path there
  template := by
    rintro _ ⟨⟩
    exact ⟨raw, by rw [Members.get?_assign, if_pos rfl], decoded⟩

theorem read_refines_fields (depth : Nat) :
    Refines Outlined (fields (record.member depth) record.start record.finish)
      (fields (outlineMember depth) [] fun gathered => .ok (.object gathered.reverse)) := by
  refine fields_refines (fun draft gathered => draft.Follows gathered.reverse) ?_ ?_ ?_
  · intro name draft gathered follows read calls
    have proper := (value_proper depth).answers
    have assigned := follows.proper.reverse_assignReversed
    simp only [record] at calls
    split at calls
    · rw [once_eq_ok calls]
      refine ⟨_, if_pos (by decide), (text_refines depth).bind ?_⟩
      rintro path _ rfl
      refine .pure ?_
      rw [assigned]
      exact follows.assign_path path
    · rw [once_eq_ok calls]
      refine ⟨_, if_pos (by decide), ((Template.read_refines depth).and_right proper).bind ?_⟩
      rintro template raw ⟨decoded, good⟩
      refine .pure ?_
      rw [assigned]
      exact follows.assign_template good decoded
    · next noPath noTemplate =>
      obtain rfl := Except.ok.inj calls
      have unused : name ∉ names := by simpa [names] using And.intro noPath noTemplate
      refine ⟨_, if_neg unused, ?_⟩
      exact .bind_same _ fun _ => .pure follows
  · refine ⟨.object List.nodup_nil (List.forall_mem_nil _), ?_, ?_, ?_⟩
    · exact List.forall_mem_nil _
    · rintro _ ⟨⟩
    · rintro _ ⟨⟩
  · intro draft gathered follows document finished
    exact ⟨_, rfl, follows.outlined finished⟩

theorem placeLoop_ok {σ : Type} {short : Nat → DecodeError} {at_ : Nat} {place : Place σ}
    {places : List (Place σ)} {gathered final : σ} {cursor after : Cursor}
    (required : place.optional = false)
    (taken : placeLoop short at_ (place :: places) gathered cursor = .ok (final, after)) :
    ∃ start next middle, hasItem (at_ == 0) cursor = .ok (true, start) ∧
      place.read gathered start = .ok (next, middle) ∧
        placeLoop short (at_ + 1) places next middle = .ok (final, after) := by
  obtain ⟨more, start, asked, rest⟩ := bind_ok_iff.mp taken
  cases more with
  | true =>
    obtain ⟨next, middle, read, later⟩ := bind_ok_iff.mp rest
    exact ⟨start, next, middle, asked, read, later⟩
  | false =>
    rw [if_neg (by decide), if_neg (by simp [required])] at rest
    cases rest

theorem endPlaces_ok {cursor after : Cursor} (taken : endPlaces cursor = .ok ((), after)) :
    hasItem false cursor = .ok (false, cursor.skipBlanks) ∧ after = cursor.skipBlanks.next := by
  obtain ⟨_, _, ⟨⟩, begun⟩ := bind_ok_iff.mp taken
  obtain ⟨_, _, ⟨⟩, seen⟩ := bind_ok_iff.mp begun
  have blank : blanks cursor = .ok ((), cursor.skipBlanks) := rfl
  have peeked : peek cursor.skipBlanks = .ok (cursor.skipBlanks.rest.head?, cursor.skipBlanks) := rfl
  rw [hasItem, bind_ok blank, bind_ok peeked]
  generalize cursor.skipBlanks.rest.head? = next at seen ⊢
  split at seen
  · cases seen
  · exact ⟨rfl, (Prod.mk.inj (Except.ok.inj seen)).2.symm⟩
  · obtain ⟨_, _, _, blank⟩ := bind_ok_iff.mp seen
    obtain ⟨_, _, _, looked⟩ := bind_ok_iff.mp blank
    obtain ⟨_, _, _, refused⟩ := bind_ok_iff.mp looked
    split at refused <;> cases refused
  · cases seen

theorem text_shrinks : Shrinks text := by
  refine .bind .blanks fun _ => .bind .peek fun seen => ?_
  split
  · exact .bind .advance fun _ => .of_refines stringBody_refines .skipStringBody
  · exact .of_stops (wrongType_stops .text)

/-- A loop over items that gets as far as a third item or the end has had two. -/
theorem itemLoop_two {α : Type} {item : Reader α} {start first middle second last : Cursor} {a b : α}
    (asked : hasItem true start = .ok (true, first)) (one : item first = .ok (a, middle))
    (askedNext : hasItem false middle = .ok (true, second)) (two : item second = .ok (b, last))
    (askedLast : hasItem false last = .ok (false, last.skipBlanks)) {steps : Steps}
    (enough : 3 ≤ steps.length) :
    itemLoop item steps true start = .ok ([a, b], last.skipBlanks.next) := by
  obtain ⟨x, steps, rfl⟩ := List.exists_cons_of_length_pos (show 0 < steps.length by omega)
  rw [List.length_cons] at enough
  obtain ⟨y, steps, rfl⟩ := List.exists_cons_of_length_pos (show 0 < steps.length by omega)
  rw [List.length_cons] at enough
  obtain ⟨z, steps, rfl⟩ := List.exists_cons_of_length_pos (show 0 < steps.length by omega)
  have third : itemLoop item (z :: steps) false last = .ok ([], last.skipBlanks.next) := by
    rw [itemLoop_eq, bind_ok askedLast]
    rfl
  have others : itemLoop item (y :: z :: steps) false middle = .ok ([b], last.skipBlanks.next) := by
    rw [itemLoop_eq, bind_ok askedNext, if_pos rfl, bind_ok two, bind_ok third]
    rfl
  rw [itemLoop_eq, bind_ok asked, if_pos rfl, bind_ok one, bind_ok others]
  rfl

/-- A document that is given as an array is an array of two values. -/
theorem readPlaces_refines (depth : Nat) (places : List (Place Draft))
    (given : places = [⟨Draft.readPath, false⟩, ⟨Draft.readTemplate depth, false⟩]) :
    Refines Outlined (record.readPlaces places) (do return Json.array (← list (value depth))) := by
  subst given
  intro cursor document after taken
  have opened := of_placing_ok taken
  obtain ⟨_, start, ⟨⟩, behind⟩ := bind_ok_iff.mp opened
  obtain ⟨draft, last, looped, ended⟩ := bind_ok_iff.mp behind
  obtain ⟨_, close, closed, finished⟩ := bind_ok_iff.mp ended
  obtain ⟨first, _, _, asked, readPath, later⟩ := placeLoop_ok rfl looped
  obtain ⟨second, _, _, askedNext, readTemplate, none⟩ := placeLoop_ok rfl later
  change hasItem false _ = .ok (true, second) at askedNext
  obtain ⟨path, middle, pathTaken, built⟩ := bind_ok_iff.mp readPath
  obtain ⟨rfl, rfl⟩ := Prod.mk.inj (Except.ok.inj built)
  obtain ⟨template, last, templateTaken, built'⟩ := bind_ok_iff.mp readTemplate
  obtain ⟨rfl, rfl⟩ := Prod.mk.inj (Except.ok.inj built')
  obtain ⟨rfl, rfl⟩ := Prod.mk.inj (Except.ok.inj none)
  obtain ⟨rfl, rfl⟩ := Prod.mk.inj (Except.ok.inj finished)
  obtain ⟨askedLast, rfl⟩ := endPlaces_ok closed
  obtain ⟨_, one, rfl⟩ := text_refines depth _ _ _ pathTaken
  obtain ⟨raw, two, decoded⟩ := Template.read_refines depth _ _ _ templateTaken
  have proper := (value_proper depth).answers _ _ _ two
  -- The second value stands behind a comma, so there are characters enough for three steps.
  have enough : 3 ≤ (' ' :: cursor.next.rest).length := by
    have upTo := (continues_of_hasItem asked).1.length_le
    have shorter := text_shrinks _ _ _ pathTaken
    obtain ⟨continues, c, rest, position, here, _⟩ := continues_of_hasItem askedNext
    have nearer := continues.length_lt
    rw [here, List.length_cons] at nearer
    rw [List.length_cons]
    omega
  have items := itemLoop_two asked one askedNext two askedLast enough
  have advanced : advance cursor = .ok ((), cursor.next) := rfl
  have listed : list (value depth) cursor = .ok ([.string path, raw], last.skipBlanks.next) :=
    placing_ok ((bind_ok advanced).trans items)
  exact ⟨_, bind_ok listed, .array proper decoded⟩

/-- Every document has an outline from which it is decoded. -/
theorem read_refines_outline (depth : Nat) :
    Refines Outlined (record.read depth) (outline depth) := by
  intro cursor document after taken
  obtain ⟨_, _, ⟨⟩, begun⟩ := bind_ok_iff.mp taken
  obtain ⟨_, _, ⟨⟩, seen⟩ := bind_ok_iff.mp begun
  by_cases brace : cursor.skipBlanks.rest.head? = some '\x7b'
  · rw [brace] at seen
    cases depth with
    | zero => cases seen
    | succ depth =>
      rw [outline_brace brace]
      exact read_refines_fields depth _ _ _ seen
  · rw [outline_of_ne brace]
    by_cases bracket : cursor.skipBlanks.rest.head? = some '['
    · rw [bracket] at seen
      cases depth with
      | zero => cases seen
      | succ depth =>
        rw [value_bracket bracket]
        exact readPlaces_refines depth _ rfl _ _ _ seen
    · generalize cursor.skipBlanks.rest.head? = next at seen brace bracket
      split at seen
      · exact absurd rfl brace
      · exact absurd rfl bracket
      · obtain ⟨stop, stopped⟩ := wrongType_stops (.record record.name) cursor.skipBlanks
        cases seen.symm.trans stopped

end Document

end TemplateLint
