import Mathlib
import TemplateLint.Json.Typed
import TemplateLint.Proofs.Scalars
import TemplateLint.Proofs.Skipping

/-! # How far values reach

Whatever is read as a value is passed over up to the same place. The reader of values goes down into
containers, while skipping keeps a stack of those that are open: the loop over the items or members
of a container corresponds to what is left to skip inside of it. No reader goes back in the text, so
there are steps enough as long as there are more of them than characters left.
-/

namespace TemplateLint.Json.Reader

variable {α β : Type}

/-! ## Blanks -/

theorem skipChars_skipChars (keep : Char → Bool) (rest : List Char) (position : Position) :
    Cursor.skipChars keep (Cursor.skipChars keep rest position).rest
      (Cursor.skipChars keep rest position).position = Cursor.skipChars keep rest position := by
  induction rest generalizing position with
  | nil => rfl
  | cons c rest ih =>
    rw [Cursor.skipChars]
    split_ifs with keeps
    · exact ih _
    · rw [Cursor.skipChars, if_neg keeps]

theorem length_skipBlanks_le (cursor : Cursor) :
    cursor.skipBlanks.rest.length ≤ cursor.rest.length :=
  Shrinks.skipChars _ _ _

/-- A reader that passes blanks first may as well start behind them. -/
theorem blanks_bind_skipBlanks (next : Unit → Reader α) (cursor : Cursor) :
    (blanks >>= next) cursor.skipBlanks = (blanks >>= next) cursor := by
  change next () cursor.skipBlanks.skipBlanks = next () cursor.skipBlanks
  exact congrArg (next ()) (skipChars_skipChars _ _ _)

theorem skipKey_skipBlanks (cursor : Cursor) : skipKey cursor.skipBlanks = skipKey cursor :=
  blanks_bind_skipBlanks _ cursor

theorem skipStart_skipBlanks (cursor : Cursor) : skipStart cursor.skipBlanks = skipStart cursor :=
  blanks_bind_skipBlanks _ cursor

theorem skipLoop_skipBlanks (step : Char) (steps : Steps) (frames : List Frame) (cursor : Cursor) :
    skipLoop (step :: steps) frames cursor.skipBlanks = skipLoop (step :: steps) frames cursor :=
  bind_congr_at (skipStart_skipBlanks cursor) _

/-! ## Values -/

theorem skipStart_lt {cursor after : Cursor} {opened : Option Frame}
    (taken : skipStart cursor = .ok (opened, after)) :
    after.rest.length < cursor.rest.length := by
  refine lt_of_lt_of_le ?_ (length_skipBlanks_le cursor)
  obtain ⟨_, _, ⟨⟩, begun⟩ := bind_ok_iff.mp taken
  generalize cursor.skipBlanks = here at begun ⊢
  rcases here with ⟨_ | ⟨c, rest⟩, position⟩
  · cases begun
  · rw [peek_bind] at begun
    generalize ahead : some c = next at begun
    split at begun
    · cases ahead
    · exact advance_bind_lt (fun _ => .bind (.word _) fun _ => .pure _) begun
    · exact advance_bind_lt (fun _ => .bind (.word _) fun _ => .pure _) begun
    · exact advance_bind_lt (fun _ => .bind (.word _) fun _ => .pure _) begun
    · exact advance_bind_lt (fun _ => .bind .skipStringBody fun _ => .pure _) begun
    · exact advance_bind_lt (fun _ => .pure _) begun
    · exact advance_bind_lt (fun _ => .pure _) begun
    · split_ifs at begun
      · obtain ⟨_, middle, passed, ended⟩ := bind_ok_iff.mp begun
        obtain ⟨_, _, parts, built⟩ := bind_ok_iff.mp passed
        obtain ⟨_, rfl⟩ := Prod.mk.inj (Except.ok.inj ended)
        obtain ⟨_, rfl⟩ := Prod.mk.inj (Except.ok.inj built)
        exact numberParts_lt parts
      · cases begun

/-- A value is a scalar, or a container whose loop was run. -/
theorem valueWith_cases {inner : Option (Reader Json)} {cursor after : Cursor} {value : Json}
    (taken : valueWith inner cursor = .ok (value, after)) :
    skipStart cursor = .ok (none, after) ∨
      (∃ item start steps items, inner = some item ∧ skipStart cursor = .ok (some .list, start) ∧
        itemLoop item steps true start = .ok (items, after)) ∨
      ∃ item start steps gathered close, inner = some item ∧
        skipStart cursor = .ok (some .object, start) ∧
          memberLoop (member item) steps true [] start = .ok (gathered, close) ∧
            after = close.next := by
  have scalar {read : Reader Json} {pass : Reader (Option Frame)}
      (refines : Refines (fun _ opened => opened = none) read pass) {cursor : Cursor}
      (taken : read cursor = .ok (value, after)) : pass cursor = .ok (none, after) := by
    obtain ⟨_, passed, rfl⟩ := refines cursor value after taken
    exact passed
  obtain ⟨_, _, ⟨⟩, begun⟩ := bind_ok_iff.mp taken
  have started (next : Option Char → Reader (Option Frame)) :
      (blanks >>= fun _ => peek >>= next) cursor = (peek >>= next) cursor.skipBlanks := rfl
  unfold skipStart
  simp only [started]
  generalize cursor.skipBlanks = here at begun ⊢
  rcases here with ⟨_ | ⟨c, rest⟩, position⟩
  · cases begun
  · simp only [peek_bind] at begun ⊢
    generalize ahead : some c = next at begun ⊢
    split at begun
    · cases ahead
    · exact .inl (scalar (.bind_same _ fun _ => .bind_same _ fun _ => .pure rfl) begun)
    · exact .inl (scalar (.bind_same _ fun _ => .bind_same _ fun _ => .pure rfl) begun)
    · exact .inl (scalar (.bind_same _ fun _ => .bind_same _ fun _ => .pure rfl) begun)
    · exact .inl (scalar (.bind_same _ fun _ => stringBody_refines.bind fun _ _ _ => .pure rfl) begun)
    · split at begun
      · cases begun
      · next item =>
        obtain ⟨items, _, list, built⟩ := bind_ok_iff.mp begun
        obtain ⟨_, rfl⟩ := Prod.mk.inj (Except.ok.inj built)
        have loop := of_placing_ok list
        rw [advance_bind] at loop
        exact .inr (.inl ⟨item, _, _, items, rfl, rfl, loop⟩)
    · split at begun
      · cases begun
      · next item =>
        have fields := of_placing_ok begun
        rw [advance_bind] at fields
        obtain ⟨gathered, close, loop, finished⟩ := bind_ok_iff.mp fields
        obtain ⟨_, rfl⟩ := Prod.mk.inj (Except.ok.inj finished)
        exact .inr (.inr ⟨item, _, _, gathered, close, rfl, rfl, loop, rfl⟩)
    · split_ifs at begun ⊢
      · exact .inl (scalar (number_refines.bind fun _ _ _ => .pure rfl) begun)
      · cases begun

/-! ## Skipping follows -/

/-- Skipping comes from one place to another inside any open containers, if there are more steps
than characters; and so it is again behind the value. -/
def Passes (cursor after : Cursor) : Prop :=
  ∀ (steps : Steps) (frames : List Frame), cursor.rest.length < steps.length →
    ∃ others : Steps, after.rest.length < others.length ∧
      skipLoop steps frames cursor = skipRest others frames true after

theorem Passes.of_skipStart {cursor after : Cursor} (started : skipStart cursor = .ok (none, after)) :
    Passes cursor after := by
  intro steps frames enough
  obtain ⟨step, steps, rfl⟩ := List.exists_cons_of_length_pos (Nat.zero_lt_of_lt enough)
  have shorter := skipStart_lt started
  rw [List.length_cons] at enough
  refine ⟨steps, by omega, ?_⟩
  rw [skipLoop, bind_ok started]
  rfl

/-- Behind an opening bracket, what is left to skip is the inside of the container. -/
theorem Passes.of_opened {cursor start after : Cursor} {frame : Frame}
    (started : skipStart cursor = .ok (some frame, start))
    (inside : ∀ (steps : Steps) (frames : List Frame), start.rest.length < steps.length →
      ∃ others : Steps, after.rest.length < others.length ∧
        skipRest steps (frame :: frames) false start = skipRest others frames true after) :
    Passes cursor after := by
  intro steps frames enough
  obtain ⟨step, steps, rfl⟩ := List.exists_cons_of_length_pos (Nat.zero_lt_of_lt enough)
  have shorter := skipStart_lt started
  rw [List.length_cons] at enough
  obtain ⟨others, fewer, passed⟩ := inside steps frames (by omega)
  refine ⟨others, fewer, ?_⟩
  rw [skipLoop, bind_ok started, ← passed]
  rfl

/-- Skipping goes past the closing bracket of a container. -/
theorem skipRest_closed {frame : Frame} {c : Char} (closes : frame.isClose c = true)
    {cursor : Cursor} (close : cursor.skipBlanks.rest.head? = some c) (steps : Steps)
    (frames : List Frame) (afterItem : Bool) (enough : cursor.rest.length < steps.length) :
    cursor.skipBlanks.next.rest.length < steps.length ∧
      skipRest steps (frame :: frames) afterItem cursor =
        skipRest steps frames true cursor.skipBlanks.next := by
  have shorter := length_skipBlanks_le cursor
  have comma : c ≠ ',' := by
    rintro rfl
    cases frame <;> cases closes
  have blank : blanks cursor = .ok ((), cursor.skipBlanks) := rfl
  have seen : peek cursor.skipBlanks = .ok (some c, cursor.skipBlanks) := by rw [peek, close]
  have closed : skipEnds (frame :: frames) afterItem cursor =
      skipEnds frames true cursor.skipBlanks.next := by
    rw [skipEnds, bind_ok blank, bind_ok seen]
    simp only [comma, false_and, if_false, closes, if_true]
    rfl
  constructor
  · obtain ⟨tail, here⟩ := List.head?_eq_some_iff.mp close
    rw [here, List.length_cons] at shorter
    rw [Cursor.next, here]
    dsimp only
    omega
  · rw [skipRest, skipRest]
    exact bind_congr_at closed _

/-- Where the next item of a container starts: behind blanks, and behind a comma unless it is the
first one. -/
inductive Continues (first : Bool) (cursor : Cursor) : Cursor → Prop where
  | first (isFirst : first = true) : Continues first cursor cursor.skipBlanks
  | next (isNext : first = false) {rest : List Char} {position : Position}
      (here : cursor.skipBlanks = ⟨',' :: rest, position⟩) :
      Continues first cursor (Cursor.skipBlanks ⟨rest, position.past ','⟩)

theorem Continues.length_lt {cursor start : Cursor} (continues : Continues false cursor start) :
    start.rest.length < cursor.rest.length := by
  have shorter := length_skipBlanks_le cursor
  cases continues with
  | first isFirst => cases isFirst
  | @next _ rest position here =>
    have behind := length_skipBlanks_le ⟨rest, position.past ','⟩
    rw [here] at shorter
    simp only [List.length_cons] at shorter behind
    omega

theorem Continues.length_le {first : Bool} {cursor start : Cursor}
    (continues : Continues first cursor start) : start.rest.length ≤ cursor.rest.length := by
  cases first with
  | false => exact continues.length_lt.le
  | true =>
    cases continues with
    | first => exact length_skipBlanks_le cursor
    | next isNext => cases isNext

theorem Continues.skipEnds {first : Bool} {cursor start : Cursor} {frame : Frame} {c : Char}
    {rest : List Char} {position : Position} (continues : Continues first cursor start)
    (solid : start = ⟨c :: rest, position⟩) (inside : frame.isClose c = false)
    (frames : List Frame) :
    ∃ before : Cursor, before.skipBlanks = start ∧
      Reader.skipEnds (frame :: frames) (!first) cursor = .ok (frame :: frames, before) := by
  have blank : blanks cursor = .ok ((), cursor.skipBlanks) := rfl
  cases continues with
  | first isFirst =>
    subst isFirst
    refine ⟨cursor.skipBlanks, skipChars_skipChars _ _ _, ?_⟩
    rw [Reader.skipEnds, bind_ok blank, solid, peek_bind]
    simp only [Bool.not_true, Bool.false_eq_true, and_false, if_false, inside]
    rfl
  | next isNext here =>
    subst isNext
    refine ⟨_, rfl, ?_⟩
    rw [Reader.skipEnds, bind_ok blank, here, peek_bind]
    rfl

theorem hasItem_cases {first more : Bool} {cursor start : Cursor}
    (taken : hasItem first cursor = .ok (more, start)) :
    (more = false ∧ start = cursor.skipBlanks ∧ start.rest.head? = some ']') ∨
      (more = true ∧ Continues first cursor start ∧ ∃ c rest position,
        start = ⟨c :: rest, position⟩ ∧ c ≠ ']') := by
  obtain ⟨_, _, ⟨⟩, begun⟩ := bind_ok_iff.mp taken
  cases here : cursor.skipBlanks with
  | mk chars position =>
    rw [here] at begun
    cases chars with
    | nil => cases begun
    | cons c rest =>
      rw [peek_bind] at begun
      generalize ahead : some c = next at begun
      split at begun
      · cases ahead
      · obtain rfl := Option.some.inj ahead
        obtain ⟨rfl, rfl⟩ := Prod.mk.inj (Except.ok.inj begun)
        exact .inl ⟨rfl, rfl, rfl⟩
      · next differs =>
        obtain rfl := Option.some.inj ahead
        split_ifs at begun with isFirst comma
        · obtain ⟨rfl, rfl⟩ := Prod.mk.inj (Except.ok.inj begun)
          exact .inr ⟨rfl, here ▸ .first isFirst, c, rest, position, rfl, differs⟩
        · subst comma
          rw [advance_bind] at begun
          obtain ⟨_, _, ⟨⟩, behind⟩ := bind_ok_iff.mp begun
          have follows := Continues.next (by simpa using isFirst) here
          generalize Cursor.skipBlanks ⟨rest, position.past ','⟩ = solid at behind follows
          rcases solid with ⟨_ | ⟨c, rest⟩, position⟩
          · cases behind
          · rw [peek_bind] at behind
            generalize ahead : some c = next at behind
            split at behind
            · cases ahead
            · cases behind
            · next differs =>
              obtain rfl := Option.some.inj ahead
              obtain ⟨rfl, rfl⟩ := Prod.mk.inj (Except.ok.inj behind)
              exact .inr ⟨rfl, follows, c, rest, position, rfl, differs⟩
        · cases begun

theorem continues_of_hasItem {first : Bool} {cursor start : Cursor}
    (asked : hasItem first cursor = .ok (true, start)) :
    Continues first cursor start ∧ ∃ c rest position, start = ⟨c :: rest, position⟩ ∧ c ≠ ']' := by
  rcases hasItem_cases asked with ⟨none, _⟩ | ⟨_, found⟩
  · cases none
  · exact found

theorem failAhead_bind {β : Type} (problem : Problem) (next : α → Reader β) :
    (failAhead problem >>= next) = failAhead problem := rfl

/-- A loop over items asks for one item after another. -/
theorem itemLoop_eq {item : Reader α} (step : Char) (steps : Steps) (first : Bool) :
    itemLoop item (step :: steps) first = (do
      if ← hasItem first then
        let head ← item
        return head :: (← itemLoop item steps false)
      else
        advance
        return []) := by
  rw [itemLoop, hasItem]
  simp only [bind_assoc]
  refine bind_congr fun _ => bind_congr fun seen => ?_
  rcases seen with _ | c
  · rfl
  · by_cases closes : c = ']'
    · subst closes
      rfl
    · simp only
      split_ifs with isFirst comma
      · simp only [pure_bind, if_true]
      · change _ = (advance >>= fun _ => _) >>= _
        rw [bind_assoc]
        refine bind_congr fun _ => ?_
        rw [bind_assoc]
        refine bind_congr fun _ => ?_
        rw [bind_assoc]
        refine bind_congr fun seen => ?_
        split
        · rfl
        · rfl
        · simp only [pure_bind, if_true]
      · rw [failAhead_bind]

/-- A loop over members that came to its end was at the closing bracket, or took a member. -/
theorem memberLoop_cases {σ : Type} {member : String → σ → Except DecodeError (Reader σ)}
    {step : Char} {steps : Steps} {first : Bool} {gathered final : σ} {cursor after : Cursor}
    (taken : memberLoop member (step :: steps) first gathered cursor = .ok (final, after)) :
    (final = gathered ∧ after = cursor.skipBlanks ∧ after.rest.head? = some '\x7d') ∨
      ∃ rest position next middle, Continues first cursor ⟨'"' :: rest, position⟩ ∧
        entry member gathered ⟨'"' :: rest, position⟩ = .ok (next, middle) ∧
          memberLoop member steps false next middle = .ok (final, after) := by
  obtain ⟨_, _, ⟨⟩, begun⟩ := bind_ok_iff.mp taken
  cases here : cursor.skipBlanks with
  | mk chars position =>
    rw [here] at begun
    cases chars with
    | nil => cases begun
    | cons c rest =>
      rw [peek_bind] at begun
      generalize ahead : some c = next at begun
      split at begun
      · cases ahead
      · obtain rfl := Option.some.inj ahead
        obtain ⟨rfl, rfl⟩ := Prod.mk.inj (Except.ok.inj begun)
        exact .inl ⟨rfl, rfl, rfl⟩
      · obtain rfl := Option.some.inj ahead
        split_ifs at begun with isFirst quote comma
        · subst quote
          obtain ⟨next, middle, entered, later⟩ := bind_ok_iff.mp begun
          exact .inr ⟨rest, position, next, middle, here ▸ .first isFirst, entered, later⟩
        · cases begun
        · subst comma
          rw [advance_bind] at begun
          obtain ⟨_, _, ⟨⟩, behind⟩ := bind_ok_iff.mp begun
          have follows := Continues.next (by simpa using isFirst) here
          generalize Cursor.skipBlanks ⟨rest, position.past ','⟩ = solid at behind follows
          rcases solid with ⟨_ | ⟨c, rest⟩, position⟩
          · cases behind
          · rw [peek_bind] at behind
            generalize ahead : some c = next at behind
            split at behind
            · cases ahead
            · cases behind
            · obtain rfl := Option.some.inj ahead
              obtain ⟨next, middle, entered, later⟩ := bind_ok_iff.mp behind
              exact .inr ⟨rest, position, next, middle, follows, entered, later⟩
            · cases behind
        · cases begun

theorem Shrinks.colon : Shrinks Reader.colon := by
  refine .bind .blanks fun _ => .bind .peek fun seen => ?_
  split
  · exact .of_stops fun _ => ⟨_, rfl⟩
  · exact .advance
  · exact .of_stops fun _ => ⟨_, rfl⟩

theorem Shrinks.skipKey : Shrinks Reader.skipKey := by
  refine .bind .blanks fun _ => .bind .peek fun seen => ?_
  split
  · exact .of_stops fun _ => ⟨_, rfl⟩
  · exact .bind .advance fun _ => .bind .skipStringBody fun _ => .colon
  · exact .of_stops fun _ => ⟨_, rfl⟩

/-- A member is a key to skip and a value. -/
theorem entry_skips {σ : Type} {member : String → σ → Except DecodeError (Reader σ)}
    {gathered next : σ} {rest : List Char} {position : Position} {after : Cursor}
    (taken : entry member gathered ⟨'"' :: rest, position⟩ = .ok (next, after)) :
    ∃ name read start, member name gathered = .ok read ∧
      skipKey ⟨'"' :: rest, position⟩ = .ok ((), start) ∧ read start = .ok (next, after) := by
  obtain ⟨name, middle, keyRead, behind⟩ := bind_ok_iff.mp taken
  cases calls : member name gathered with
  | error error =>
    simp only [calls] at behind
    cases behind
  | ok read =>
    simp only [calls] at behind
    obtain ⟨_, start, passed, given⟩ := bind_ok_iff.mp behind
    obtain ⟨_, skipped, _⟩ := stringBody_refines _ _ _ keyRead
    have opened : skipKey ⟨'"' :: rest, position⟩ =
        (skipStringBody >>= fun _ => colon) ⟨rest, position.past '"'⟩ := rfl
    exact ⟨name, read, start, calls, opened.trans ((bind_ok skipped).trans passed), given⟩

section

variable {item : Reader Json}
  (each : ∀ cursor value after, item cursor = .ok (value, after) → Passes cursor after)

include each

/-- The items of an array are skipped one after another, like they are read. -/
theorem skipRest_items {steps : Steps} {first : Bool} {cursor after : Cursor} {items : List Json}
    (taken : itemLoop item steps first cursor = .ok (items, after)) (others : Steps)
    (frames : List Frame) (enough : cursor.rest.length < others.length) :
    ∃ left : Steps, after.rest.length < left.length ∧
      skipRest others (.list :: frames) (!first) cursor = skipRest left frames true after := by
  induction steps generalizing first cursor items others with
  | nil => cases taken
  | cons step steps ih =>
    rw [itemLoop_eq] at taken
    obtain ⟨more, start, asked, rest⟩ := bind_ok_iff.mp taken
    rcases hasItem_cases asked with ⟨rfl, rfl, close⟩ | ⟨rfl, continues, c, tail, position, here, opens⟩
    · rw [if_neg (by decide)] at rest
      obtain ⟨_, rfl⟩ := Prod.mk.inj (Except.ok.inj rest)
      exact ⟨others, skipRest_closed rfl close others frames (!first) enough⟩
    · rw [if_pos rfl] at rest
      obtain ⟨head, middle, read, later⟩ := bind_ok_iff.mp rest
      obtain ⟨behind, last, looped, built⟩ := bind_ok_iff.mp later
      obtain ⟨_, rfl⟩ := Prod.mk.inj (Except.ok.inj built)
      have inside : Frame.list.isClose c = false := beq_eq_false_iff_ne.mpr opens
      obtain ⟨before, same, opened⟩ := continues.skipEnds here inside frames
      have shorter := continues.length_le
      obtain ⟨between, fewer, passed⟩ := each start head middle read others (.list :: frames) (by omega)
      obtain ⟨left, least, finished⟩ := ih looped between fewer
      obtain ⟨other, others, rfl⟩ := List.exists_cons_of_length_pos (Nat.zero_lt_of_lt enough)
      refine ⟨left, least, ?_⟩
      rw [skipRest, bind_ok opened]
      change skipLoop (other :: others) (.list :: frames) before = _
      rw [← skipLoop_skipBlanks, same, passed, ← finished]
      rfl

/-- The members of an object are skipped one after another, like they are read. -/
theorem skipRest_members {steps : Steps} {first : Bool} {gathered final : Members}
    {cursor after : Cursor}
    (taken : memberLoop (member item) steps first gathered cursor = .ok (final, after))
    (others : Steps) (frames : List Frame) (enough : cursor.rest.length < others.length) :
    ∃ left : Steps, after.next.rest.length < left.length ∧
      skipRest others (.object :: frames) (!first) cursor =
        skipRest left frames true after.next := by
  induction steps generalizing first gathered cursor others with
  | nil => cases taken
  | cons step steps ih =>
    rcases memberLoop_cases taken with
      ⟨rfl, rfl, close⟩ | ⟨rest, position, next, middle, continues, entered, looped⟩
    · exact ⟨others, skipRest_closed rfl close others frames (!first) enough⟩
    · obtain ⟨name, read, start, calls, keyed, given⟩ := entry_skips entered
      obtain rfl := Except.ok.inj calls
      obtain ⟨value, last, valued, built⟩ := bind_ok_iff.mp given
      obtain ⟨_, rfl⟩ := Prod.mk.inj (Except.ok.inj built)
      have inside : Frame.object.isClose '"' = false := rfl
      obtain ⟨before, same, opened⟩ := continues.skipEnds rfl inside frames
      have shorter := continues.length_le
      have keyLength := Shrinks.skipKey _ _ _ keyed
      obtain ⟨between, fewer, passed⟩ := each start value last valued others (.object :: frames)
        (by omega)
      obtain ⟨left, least, finished⟩ := ih looped between fewer
      refine ⟨left, least, ?_⟩
      rw [skipRest, bind_ok opened]
      change (skipKey >>= fun _ => skipLoop others (.object :: frames)) before = _
      rw [bind_ok ((skipKey_skipBlanks before).symm.trans (same ▸ keyed)), passed, ← finished]
      rfl

theorem Passes.of_valueWith {cursor after : Cursor} {value : Json}
    (taken : valueWith (some item) cursor = .ok (value, after)) : Passes cursor after := by
  rcases valueWith_cases taken with scalar | ⟨_, start, steps, items, ⟨⟩, started, looped⟩ |
    ⟨_, start, steps, gathered, close, ⟨⟩, started, looped, rfl⟩
  · exact .of_skipStart scalar
  · exact .of_opened started fun others frames enough =>
      skipRest_items each looped others frames enough
  · exact .of_opened started fun others frames enough =>
      skipRest_members each looped others frames enough

end

/-- Whatever is read as a value is passed over up to the same place. -/
theorem Passes.of_value {depth : Nat} {cursor after : Cursor} {raw : Json}
    (taken : value depth cursor = .ok (raw, after)) : Passes cursor after := by
  induction depth generalizing cursor after raw with
  | zero =>
    rcases valueWith_cases taken with scalar | ⟨_, _, _, _, none, _⟩ | ⟨_, _, _, _, _, none, _⟩
    · exact .of_skipStart scalar
    · cases none
    · cases none
  | succ depth ih => exact .of_valueWith (fun _ _ _ => ih) taken

theorem value_refines_skip (depth : Nat) : Refines (fun _ _ => True) (value depth) skip := by
  intro cursor raw after taken
  obtain ⟨others, _, passed⟩ := Passes.of_value taken (' ' :: cursor.rest) [] (Nat.lt_succ_self _)
  exact ⟨(), passed, trivial⟩

end TemplateLint.Json.Reader
