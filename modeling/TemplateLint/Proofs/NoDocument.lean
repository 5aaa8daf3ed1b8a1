import Mathlib
import TemplateLint.Proofs.Skipping
import TemplateLint.Template.Reader

/-! # A catalog is no document

A document has a template, and a template has a list. There is no list in a tree of texts, so what
is printed for one is not read as a document; nor is any text that is read as an empty object.
Reading keeps that no template was met so far, and a document without one is refused at its end.
-/

namespace TemplateLint.Json.Reader

variable {α β σ : Type}

/-! ## Readers that always stop -/

theorem bind_always_stops {next : α → Reader β}
    (stops : ∀ a after, ∃ stop, next a after = .error stop) (read : Reader α) (cursor : Cursor) :
    ∃ stop, (read >>= next) cursor = .error stop := by
  cases taken : read cursor with
  | error stop => exact ⟨stop, bind_error taken next⟩
  | ok result =>
    obtain ⟨a, after⟩ := result
    rw [bind_ok taken]
    exact stops a after

theorem wrongType_stops (expected : Expected) (cursor : Cursor) :
    ∃ stop, (wrongType expected : Reader α) cursor = .error stop := by
  unfold wrongType
  refine bind_always_stops (fun seen after => ?_) peek cursor
  split
  -- The scalars are consumed before the reader stops.
  iterate 4
    · exact bind_always_stops (fun _ _ => bind_always_stops (fun _ _ => ⟨_, rfl⟩) _ _) _ _
  · exact ⟨_, rfl⟩
  · exact ⟨_, rfl⟩
  · split_ifs
    · exact bind_always_stops (fun _ _ => ⟨_, rfl⟩) _ _
    · exact ⟨_, rfl⟩
  · exact ⟨_, rfl⟩

/-! ## Records -/

/-- A reader stops at a text, or takes it and answers something with a property. -/
def Keeps (read : Reader σ) (text : String) (P : σ → Prop) : Prop :=
  read.Stops text ∨ ∃ next, P next ∧ read.Takes text next

theorem Takes.map {read : Reader α} {text : String} {a : α} (takes : read.Takes text a)
    (f : α → β) : Takes (do return f (← read)) text (f a) := by
  intro blank allBlank rest position
  obtain ⟨after, taken⟩ := takes blank allBlank rest position
  exact ⟨after, bind_ok taken⟩

theorem Stops.bind {read : Reader α} {text : String} (stops : read.Stops text)
    (next : α → Reader β) : Stops (read >>= next) text := by
  intro blank allBlank rest position
  obtain ⟨stop, stopped⟩ := stops blank allBlank rest position
  exact ⟨stop, bind_error stopped next⟩

section

variable {member : String → σ → Except DecodeError (Reader σ)} {P : σ → Prop} {level : Nat}
  {members : Members}

theorem entry_refused {gathered : σ} {name : String} {error : DecodeError}
    (calls : member name gathered = .error error) (rest : List Char) (position : Position) :
    ∃ stop, entry member gathered ⟨(quote name).toList ++ rest, position⟩ = .error stop := by
  obtain ⟨after, keyRead⟩ := key_quoted name rest position
  refine ⟨.unplaced error ⟨rest, after⟩, ?_⟩
  rw [entry, bind_ok keyRead]
  simp only [calls]
  rfl

/-- What holds of the members gathered is kept by the loop, if it does not stop. -/
theorem memberLoop_keeps
    (each : ∀ item ∈ members, ∀ gathered, P gathered → ∀ read,
      member item.1 gathered = .ok read → read.Keeps (render .pretty (level + 1) item.2) P)
    (gathered : σ) (holds : P gathered) (steps : Steps) (enough : members.length < steps.length)
    (first : Bool) (rest : List Char) (position : Position) :
    (∃ stop, memberLoop member steps first gathered
      ⟨inside level first members ++ '\x7d' :: rest, position⟩ = .error stop) ∨
    ∃ next after, P next ∧ memberLoop member steps first gathered
      ⟨inside level first members ++ '\x7d' :: rest, position⟩ =
        .ok (next, ⟨'\x7d' :: rest, after⟩) := by
  induction members generalizing steps gathered first position with
  | nil =>
    obtain ⟨step, steps, rfl⟩ := List.exists_cons_of_length_pos enough
    obtain ⟨after, closed⟩ := memberLoop_close member gathered level step steps first rest position
    exact .inr ⟨gathered, after, holds, closed⟩
  | cons item members ih =>
    rcases item with ⟨name, value⟩
    obtain ⟨step, steps, rfl⟩ := List.exists_cons_of_length_pos (Nat.zero_lt_of_lt enough)
    rw [inside_cons]
    cases calls : member name gathered with
    | error error =>
      obtain ⟨start, begun⟩ := memberLoop_line member gathered name (level + 1) step steps first
        (':' :: ([' '] ++ ((render .pretty (level + 1) value).toList ++
          (inside level false members ++ '\x7d' :: rest)))) position
      obtain ⟨stop, stopped⟩ := entry_refused calls (':' :: ([' '] ++
        ((render .pretty (level + 1) value).toList ++
          (inside level false members ++ '\x7d' :: rest)))) start
      exact .inl ⟨stop, begun.trans (bind_error stopped _)⟩
    | ok read =>
      obtain ⟨start, begun⟩ := memberLoop_entry calls (level + 1) step steps first
        ([' '] ++ ((render .pretty (level + 1) value).toList ++
          (inside level false members ++ '\x7d' :: rest))) position
      rw [begun]
      rcases each _ (List.mem_cons_self ..) gathered holds read calls with
        stops | ⟨next, kept, takes⟩
      · obtain ⟨stop, stopped⟩ := stops [' '] (by simp [Cursor.isBlank])
          (inside level false members ++ '\x7d' :: rest) start
        exact .inl ⟨stop, bind_error stopped _⟩
      · obtain ⟨middle, taken⟩ := takes [' '] (by simp [Cursor.isBlank])
          (inside level false members ++ '\x7d' :: rest) start
        rw [bind_ok taken]
        exact ih (fun item among => each item (List.mem_cons_of_mem _ among)) next kept steps
          (Nat.lt_of_succ_lt_succ enough) false middle

/-- An object is no record if its loop over the members stops or gathers what cannot be finished. -/
theorem fields_stops_of_loop {start : σ} {finish : σ → Except DecodeError α} {cursor : Cursor}
    (loop : (∃ stop, bounded (fun steps => memberLoop member steps true start) cursor.next =
        .error stop) ∨
      ∃ gathered after error, bounded (fun steps => memberLoop member steps true start)
        cursor.next = .ok (gathered, after) ∧ finish gathered = .error error) :
    ∃ stop, fields member start finish cursor = .error stop := by
  have advanced : advance cursor = .ok ((), cursor.next) := rfl
  unfold fields
  rcases loop with ⟨stop, stopped⟩ | ⟨gathered, after, error, ended, failed⟩
  · exact placing_error ((bind_ok advanced).trans (bind_error stopped _)) _
  · refine placing_error (?_ : _ = Except.error (Stop.unplaced error after)) _
    rw [bind_ok advanced, bind_ok ended]
    simp only [failed]
    rfl

/-- An object is no record if what the members gathered keep does not do for one. -/
theorem fields_stops {start : σ} {finish : σ → Except DecodeError α} (holds : P start)
    (each : ∀ item ∈ members, ∀ gathered, P gathered → ∀ read,
      member item.1 gathered = .ok read → read.Keeps (render .pretty (level + 1) item.2) P)
    (unfinished : ∀ gathered, P gathered → ∃ error, finish gathered = .error error)
    (rest : List Char) (position : Position) :
    ∃ stop, fields member start finish
      ⟨(render .pretty level (.object members)).toList ++ rest, position⟩ = .error stop := by
  rw [toList_render_object]
  have loop := bounded_eq (fun steps => memberLoop member steps true start)
    (inside level true members ++ '\x7d' :: rest) (position.past '\x7b')
  refine fields_stops_of_loop ?_
  rcases memberLoop_keeps each start holds _ (enough_steps level members ('\x7d' :: rest)) true
    rest (position.past '\x7b') with ⟨stop, stopped⟩ | ⟨gathered, after, kept, taken⟩
  · exact .inl ⟨stop, loop.trans stopped⟩
  · obtain ⟨error, failed⟩ := unfinished gathered kept
    exact .inr ⟨gathered, _, error, loop.trans taken, failed⟩

end

/-- A tree of texts is no record if what the members gathered keep does not do for one. -/
theorem Record.read_stops {shape : Record σ α} {P : σ → Prop} (holds : P shape.start)
    (each : ∀ depth level name, ∀ {bound value}, TextTree bound value → ∀ gathered, P gathered →
      ∀ read, shape.member depth name gathered = .ok read →
        read.Keeps (render .pretty level value) P)
    (unfinished : ∀ gathered, P gathered → ∃ error, shape.finish gathered = .error error)
    {bound : Nat} {value : Json} (tree : TextTree bound value) (depth level : Nat) :
    (shape.read depth).Stops (render .pretty level value) := by
  unfold Record.read
  cases tree with
  | text _ text => exact stops_at_quote level text (wrongType_stops (.record shape.name))
  | @object _ members _ values =>
    cases depth with
    | zero => exact stops_at_bracket level members fun _ => ⟨_, rfl⟩
    | succ depth =>
      intro blank allBlank rest position
      obtain ⟨middle, passed⟩ := blanks_append allBlank (c := '\x7b') rfl
        (inside level true members ++ '\x7d' :: rest) position
      rw [toList_render_object, bind_ok passed, peek_bind, ← toList_render_object]
      exact fields_stops holds (fun item among => each depth (level + 1) item.1 (values item among))
        unfinished rest middle

/-- A printed text or object is no list. -/
theorem listOf_stops (item : Nat → Reader α) (depth : Nat) {bound : Nat} {value : Json}
    (tree : TextTree bound value) (level : Nat) :
    (listOf item depth).Stops (render .pretty level value) := by
  unfold listOf
  cases tree with
  | text _ text => exact stops_at_quote level text (wrongType_stops .sequence)
  | @object _ members => exact stops_at_bracket level members (wrongType_stops .sequence)

/-- A printed text is read as a text, and a printed object stops the reader. -/
theorem text_keeps {bound : Nat} {value : Json} (tree : TextTree bound value) (level : Nat) :
    text.Keeps (render .pretty level value) fun _ => True := by
  cases tree with
  | text _ content =>
    refine .inr ⟨content, trivial, ?_⟩
    intro blank allBlank rest position
    rw [render, toList_quote_append]
    obtain ⟨middle, passed⟩ := blanks_append allBlank (c := '"') rfl
      (content.toList.flatMap escapeChar ++ '"' :: rest) position
    obtain ⟨after, taken⟩ := stringBody_quoted content rest (middle.past '"')
    refine ⟨after, ?_⟩
    unfold text
    rw [bind_ok passed, peek_bind]
    exact taken
  | @object _ members =>
    unfold text
    exact .inl (stops_at_bracket level members (wrongType_stops .text))

/-- Every printed tree of texts is read as a value or stops the reader. -/
theorem value_keeps (depth : Nat) {bound : Nat} {value : Json} (tree : TextTree bound value)
    (level : Nat) : (Reader.value depth).Keeps (render .pretty level value) fun _ => True := by
  by_cases fits : TextTree depth value
  · exact .inr ⟨value, trivial, fits.takes level⟩
  · exact .inl (tree.stops fits level)

theorem Keeps.map {read : Reader α} {text : String} {Q : α → Prop} (keeps : read.Keeps text Q)
    {f : α → σ} {P : σ → Prop} (maps : ∀ a, Q a → P (f a)) :
    Keeps (do return f (← read)) text P := by
  rcases keeps with stops | ⟨a, holds, takes⟩
  · exact .inl (stops.bind _)
  · exact .inr ⟨f a, maps a holds, takes.map f⟩

/-! ## Empty objects -/

/-- Whatever a reader answers at a cursor has a property. -/
def Answers (read : Reader α) (cursor : Cursor) (P : α → Prop) : Prop :=
  ∀ a after, read cursor = .ok (a, after) → P a

theorem Answers.bind {read : Reader α} {next : α → Reader β} {cursor : Cursor} {P : β → Prop}
    (each : ∀ a middle, read cursor = .ok (a, middle) → (next a).Answers middle P) :
    (read >>= next).Answers cursor P := by
  intro b after taken
  obtain ⟨a, middle, begun, ended⟩ := bind_ok_iff.mp taken
  exact each a middle begun b after ended

theorem Answers.pure {a : α} {P : α → Prop} (holds : P a) (cursor : Cursor) :
    Answers (pure a) cursor P := by
  rintro _ _ ⟨⟩
  exact holds

theorem Answers.peek {next : Option Char → Reader α} {cursor : Cursor} {P : α → Prop}
    (each : (next cursor.rest.head?).Answers cursor P) :
    (Reader.peek >>= next).Answers cursor P := each

theorem Answers.blanks {next : Unit → Reader α} {cursor : Cursor} {P : α → Prop}
    (each : (next ()).Answers cursor.skipBlanks P) :
    (Reader.blanks >>= next).Answers cursor P := each

theorem Answers.placing {read : Reader α} {cursor : Cursor} {P : α → Prop}
    (each : read.Answers cursor P) (close : Cursor → Cursor) :
    (Reader.placing close read).Answers cursor P :=
  fun a after taken => each a after (of_placing_ok taken)

section

variable {member : String → σ → Except DecodeError (Reader σ)} {P : σ → Prop}
  (made : ∀ name gathered read, member name gathered = .ok read → ∀ cursor, read.Answers cursor P)

include made

theorem entry_answers (gathered : σ) (cursor : Cursor) :
    (entry member gathered).Answers cursor P := by
  refine .bind fun name middle _ => ?_
  split
  next error _ => rintro _ _ ⟨⟩
  next read calls => exact .bind fun _ start _ => made name gathered read calls start

/-- A loop over members answers what a member made, or meets the closing bracket at once. -/
theorem memberLoop_answers (steps : Steps) (first : Bool) (gathered : σ) (cursor : Cursor) :
    (memberLoop member steps first gathered).Answers cursor fun result =>
      P result ∨ result = gathered ∧ cursor.skipBlanks.rest.head? = some '\x7d' := by
  induction steps generalizing first gathered cursor with
  | nil => rintro _ _ ⟨⟩
  | cons step steps ih =>
    have more (cursor : Cursor) :
        (entry member gathered >>= memberLoop member steps false).Answers cursor P := by
      refine .bind fun next middle entered result after taken => ?_
      rcases ih false next middle result after taken with holds | ⟨rfl, _⟩
      · exact holds
      · exact entry_answers made gathered cursor _ _ entered
    refine .blanks (.peek ?_)
    split
    next => rintro _ _ ⟨⟩
    next closed => exact .pure (.inr ⟨rfl, closed⟩) _
    next c =>
      split_ifs
      · exact fun result after taken => .inl (more _ result after taken)
      · rintro _ _ ⟨⟩
      · refine .bind fun _ _ _ => .blanks (.peek ?_)
        split
        next => rintro _ _ ⟨⟩
        next => rintro _ _ ⟨⟩
        next => exact fun result after taken => .inl (more _ result after taken)
        next => rintro _ _ ⟨⟩
      · rintro _ _ ⟨⟩

end

theorem memberLoop_closed (member : String → σ → Except DecodeError (Reader σ)) (step : Char)
    (steps : Steps) (first : Bool) (gathered : σ) {cursor : Cursor}
    (closed : cursor.skipBlanks.rest.head? = some '\x7d') :
    memberLoop member (step :: steps) first gathered cursor = .ok (gathered, cursor.skipBlanks) := by
  have passed : blanks cursor = .ok ((), cursor.skipBlanks) := rfl
  have seen : peek cursor.skipBlanks = .ok (some '\x7d', cursor.skipBlanks) := by
    rw [peek, closed]
  rw [memberLoop, bind_ok passed, bind_ok seen]
  rfl

theorem assignReversed_ne_nil (name : String) (value : Json) (gathered : Members) :
    Members.assignReversed name value gathered ≠ [] := by
  unfold Members.assignReversed
  split_ifs with present
  · intro none
    rw [List.map_eq_nil_iff.mp none] at present
    cases present
  · simp

/-- Where an empty object is read, its members end at once. -/
theorem valueWith_answers (inner : Option (Reader Json)) (cursor : Cursor) :
    (valueWith inner).Answers cursor fun result => result = .object [] →
      cursor.skipBlanks.rest.head? = some '\x7b' ∧
      cursor.skipBlanks.next.skipBlanks.rest.head? = some '\x7d' := by
  refine .blanks (.peek ?_)
  split
  next => rintro _ _ ⟨⟩
  -- Words and texts are no objects.
  iterate 4
    next => exact .bind fun _ _ _ => .bind fun _ _ _ => .pure nofun _
  next =>
    split
    · rintro _ _ ⟨⟩
    · exact .bind fun _ _ _ => .pure nofun _
  next opened =>
    split
    · rintro _ _ ⟨⟩
    next value =>
      refine .placing (.bind ?_) _
      rintro _ _ ⟨⟩
      refine .bind fun gathered middle taken => .bind fun _ _ _ => .pure ?_ _
      intro none
      have loop := memberLoop_answers (P := fun gathered => gathered ≠ []) ?_ _ _ _ _ _ _ taken
      · rcases loop with more | ⟨_, closed⟩
        · exact absurd (List.reverse_eq_nil_iff.mp (Json.object.inj none)) more
        · exact ⟨opened, closed⟩
      · rintro name gathered _ ⟨⟩ cursor
        refine .bind fun value _ _ => .pure ?_ _
        exact assignReversed_ne_nil name value gathered
  next c _ _ _ _ _ _ _ =>
    split_ifs
    · exact .bind fun _ _ _ => .pure nofun _
    · rintro _ _ ⟨⟩

/-- An empty object is no record if the start of one cannot be finished. -/
theorem Record.read_stops_at_empty (shape : Record σ α)
    (unfinished : ∃ error, shape.finish shape.start = .error error) (depth : Nat) {cursor : Cursor}
    (opened : cursor.skipBlanks.rest.head? = some '\x7b')
    (closed : cursor.skipBlanks.next.skipBlanks.rest.head? = some '\x7d') :
    ∃ stop, shape.read depth cursor = .error stop := by
  have passed : blanks cursor = .ok ((), cursor.skipBlanks) := rfl
  have seen : peek cursor.skipBlanks = .ok (some '\x7b', cursor.skipBlanks) := by
    rw [peek, opened]
  unfold Record.read
  rw [bind_ok passed, bind_ok seen]
  cases depth with
  | zero => exact ⟨_, rfl⟩
  | succ depth =>
    obtain ⟨error, failed⟩ := unfinished
    have loop : bounded (fun steps => memberLoop (shape.member depth) steps true shape.start)
        cursor.skipBlanks.next = .ok (shape.start, cursor.skipBlanks.next.skipBlanks) :=
      memberLoop_closed (shape.member depth) ' ' cursor.skipBlanks.next.rest true shape.start closed
    exact fields_stops_of_loop (.inr ⟨_, _, error, loop, failed⟩)

end TemplateLint.Json.Reader

namespace TemplateLint

open Json Json.Reader

/-! ## Documents -/

/-- No tree of texts is a template. -/
theorem Template.read_stops {bound : Nat} {value : Json} (tree : TextTree bound value)
    (depth level : Nat) : (Template.record.read depth).Stops (render .pretty level value) := by
  refine Record.read_stops (P := fun draft => draft.body = none) rfl ?_ ?_ tree depth level
  · intro depth level name bound value tree draft fresh read calls
    simp only [Template.record] at calls
    split at calls
    · rw [fresh] at calls
      cases calls
      exact .inl ((listOf_stops _ depth tree level).bind _)
    · cases calls
      exact (value_keeps depth tree level).map fun _ _ => fresh
  · intro draft fresh
    refine ⟨.missingField "body", ?_⟩
    simp [Template.record, BodyDraft.finishTemplate, fresh, required]

theorem Document.Draft.finish_of_template_none (draft : Document.Draft)
    (fresh : draft.template = none) : ∃ error, draft.finish = .error error := by
  cases path : draft.filePath with
  | none =>
    refine ⟨.missingField "filePath", ?_⟩
    rw [finish, path]
    rfl
  | some filePath =>
    refine ⟨.missingField "template", ?_⟩
    rw [finish, path, fresh]
    rfl

/-- No tree of texts is a document. -/
theorem Document.read_stops {bound : Nat} {value : Json} (tree : TextTree bound value)
    (depth level : Nat) : (Document.record.read depth).Stops (render .pretty level value) := by
  refine Record.read_stops (P := fun draft => draft.template = none) rfl ?_ ?_ tree depth level
  · intro depth level name bound value tree draft fresh read calls
    simp only [Document.record] at calls
    split at calls
    · unfold once at calls
      split at calls
      · cases calls
      · cases calls
        exact (text_keeps tree level).map fun _ _ => fresh
    · rw [fresh] at calls
      cases calls
      exact .inl ((Template.read_stops tree depth level).bind _)
    · cases calls
      exact .inr ⟨draft, fresh, (tree.skip_takes level).map fun _ => draft⟩
  · exact fun draft fresh => draft.finish_of_template_none fresh

theorem Json.readText_error {α : Type} {reader : Reader α} {text : String} {stop : Stop}
    (stopped : reader (.ofString text) = .error stop) :
    readText reader text = .error stop.fault := by
  rw [readText, stopped]

/-- What is printed for a tree of texts is not read as a document. -/
theorem Json.TextTree.document_parse {bound : Nat} {value : Json} (tree : TextTree bound value) :
    ∃ fault, Document.parse (value.pretty ++ "\n") = .error fault := by
  obtain ⟨stop, stopped⟩ :=
    Document.read_stops tree depthLimit 0 [] (by simp) ['\n'] .start
  rw [← ofString_pretty_line] at stopped
  exact ⟨stop.fault, readText_error stopped⟩

/-- A text that is read as an empty object is not read as a document. -/
theorem Document.parse_of_empty {text : String} (empty : Json.parse text = .ok (.object [])) :
    ∃ fault, Document.parse text = .error fault := by
  obtain ⟨after, taken, _⟩ := readText_eq_ok_iff.mp empty
  obtain ⟨opened, closed⟩ := valueWith_answers _ _ _ _ taken rfl
  obtain ⟨stop, stopped⟩ := Document.record.read_stops_at_empty
    (Document.Draft.finish_of_template_none {} rfl) depthLimit opened closed
  exact ⟨stop.fault, readText_error stopped⟩

end TemplateLint
