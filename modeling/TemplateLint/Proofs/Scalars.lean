import Mathlib
import TemplateLint.Proofs.Refinement

/-! # How far numbers and strings reach

Whatever is read as a number or a string is passed over up to the same place. A surrogate pair is
read as one escape but skipped as two, so the loops over a string do not go step by step; what holds
them together is that no reader goes back in the text.
-/

namespace TemplateLint.Json.Reader

variable {α β : Type}

/-! ## Readers never go back -/

/-- What a reader leaves of a text is no longer than the text. -/
def Shrinks (read : Reader α) : Prop :=
  ∀ cursor a after, read cursor = .ok (a, after) → after.rest.length ≤ cursor.rest.length

namespace Shrinks

theorem pure (a : α) : Shrinks (Pure.pure a) := by
  rintro cursor _ _ ⟨⟩
  exact le_rfl

theorem of_stops {read : Reader α} (stops : ∀ cursor, ∃ stop, read cursor = .error stop) :
    Shrinks read := by
  intro cursor a after taken
  obtain ⟨stop, stopped⟩ := stops cursor
  rw [stopped] at taken
  cases taken

theorem bind {read : Reader α} {next : α → Reader β} (first : Shrinks read)
    (rest : ∀ a, Shrinks (next a)) : Shrinks (read >>= next) := by
  intro cursor b after taken
  obtain ⟨a, middle, begun, ended⟩ := bind_ok_iff.mp taken
  exact (rest a middle b after ended).trans (first cursor a middle begun)

theorem peek : Shrinks Reader.peek := by
  rintro cursor _ _ ⟨⟩
  exact le_rfl

theorem advance : Shrinks Reader.advance := by
  rintro ⟨rest, position⟩ _ _ ⟨⟩
  cases rest with
  | nil => exact le_rfl
  | cons c rest => exact Nat.le_succ _

theorem skipChars (keep : Char → Bool) (rest : List Char) (position : Position) :
    (Cursor.skipChars keep rest position).rest.length ≤ rest.length := by
  induction rest generalizing position with
  | nil => exact le_rfl
  | cons c rest ih =>
    rw [Cursor.skipChars]
    split_ifs
    · exact (ih _).trans (Nat.le_succ _)
    · exact le_rfl

theorem blanks : Shrinks Reader.blanks := by
  rintro cursor _ _ ⟨⟩
  exact skipChars _ _ _

theorem digits : Shrinks Reader.digits := by
  rintro cursor _ _ ⟨⟩
  exact skipChars _ _ _

theorem word (expected : List Char) : Shrinks (Reader.word expected) := by
  induction expected with
  | nil => exact pure ()
  | cons c rest ih =>
    refine peek.bind fun seen => ?_
    split
    · exact of_stops fun _ => ⟨_, rfl⟩
    · split_ifs
      · exact advance.bind fun _ => ih
      · exact of_stops fun _ => ⟨_, rfl⟩

theorem hexQuad : Shrinks Reader.hexQuad := by
  intro cursor value after taken
  unfold Reader.hexQuad at taken
  split at taken
  · next rest found dropped =>
    obtain ⟨rfl, rfl⟩ := Prod.mk.inj (Except.ok.inj taken)
    have lengths := congrArg List.length dropped
    simp only [List.length_drop, List.length_cons] at lengths
    dsimp only
    omega
  · split at taken <;> cases taken

theorem skipEscape : Shrinks Reader.skipEscape := by
  refine peek.bind fun seen => ?_
  split
  · exact of_stops fun _ => ⟨_, rfl⟩
  · exact advance.bind fun _ => hexQuad.bind fun _ => pure ()
  · split_ifs
    · exact advance
    · exact of_stops fun _ => ⟨_, rfl⟩

theorem skipStringChars (steps : Steps) : Shrinks (Reader.skipStringChars steps) := by
  induction steps with
  | nil => exact of_stops fun _ => ⟨_, rfl⟩
  | cons step steps ih =>
    refine peek.bind fun seen => ?_
    split
    · exact of_stops fun _ => ⟨_, rfl⟩
    · exact advance
    · exact advance.bind fun _ => skipEscape.bind fun _ => ih
    · split_ifs
      · exact of_stops fun _ => ⟨_, rfl⟩
      · exact advance.bind fun _ => ih

theorem skipStringBody : Shrinks Reader.skipStringBody :=
  fun cursor => skipStringChars _ cursor

theorem fractionDigits (atEnd : Problem) : Shrinks (Reader.fractionDigits atEnd) := by
  refine peek.bind fun seen => ?_
  split
  · exact of_stops fun _ => ⟨_, rfl⟩
  · split_ifs
    · exact digits
    · exact of_stops fun _ => ⟨_, rfl⟩

theorem exponentPart (atEnd : Problem) : Shrinks (Reader.exponentPart atEnd) := by
  have start : Shrinks (get : Reader Cursor) := by
    rintro cursor _ _ ⟨⟩
    exact le_rfl
  refine bind (peek.bind fun seen => ?_) fun _ =>
    start.bind fun _ => (fractionDigits atEnd).bind fun _ => pure _
  split
  · exact advance.bind fun _ => pure _
  · exact advance.bind fun _ => pure _
  · exact pure _

end Shrinks

/-- A reader that goes past the next character leaves less. -/
theorem advance_bind_lt {next : Unit → Reader α} (shrinks : ∀ u, Shrinks (next u)) {c : Char}
    {rest : List Char} {position : Position} {a : α} {after : Cursor}
    (taken : (advance >>= next) ⟨c :: rest, position⟩ = .ok (a, after)) :
    after.rest.length < (c :: rest).length := by
  rw [advance_bind] at taken
  exact Nat.lt_succ_of_le (shrinks () _ _ _ taken)

/-! ## Numbers -/

theorem wholeDigits_lt {atEnd : Problem} {cursor after : Cursor} {whole : List Nat}
    (taken : wholeDigits atEnd cursor = .ok (whole, after)) :
    after.rest.length < cursor.rest.length := by
  rcases cursor with ⟨_ | ⟨c, rest⟩, position⟩
  · cases taken
  · rw [wholeDigits, peek_bind] at taken
    generalize ahead : some c = next at taken
    split at taken
    · cases ahead
    · refine advance_bind_lt (fun _ => .bind .peek fun seen => ?_) taken
      split
      · split_ifs
        · exact .of_stops fun _ => ⟨_, rfl⟩
        · exact .pure _
      · exact .pure _
    · next digit _ =>
      obtain rfl := Option.some.inj ahead
      split_ifs at taken with isDigit
      · obtain ⟨_, rfl⟩ := Prod.mk.inj (Except.ok.inj taken)
        rw [Cursor.skipChars, if_pos isDigit]
        exact Nat.lt_succ_of_le (Shrinks.skipChars _ _ _)
      · cases taken

theorem numberParts_lt {atEnd : Problem} {cursor after : Cursor} {parts : NumberParts}
    (taken : numberParts atEnd cursor = .ok (parts, after)) :
    after.rest.length < cursor.rest.length := by
  obtain ⟨negative, unsigned, signed, rest⟩ := bind_ok_iff.mp taken
  obtain ⟨whole, middle, begun, ended⟩ := bind_ok_iff.mp rest
  have sign : unsigned.rest.length ≤ cursor.rest.length := by
    refine Shrinks.bind .peek (fun seen => ?_) cursor negative unsigned signed
    split
    · exact .bind .advance fun _ => .pure _
    · exact .pure _
  have behind : after.rest.length ≤ middle.rest.length := by
    refine Shrinks.bind (.bind .peek fun seen => ?_) (fun fraction => .bind (.bind .peek fun seen => ?_)
      fun exponent => .pure _) middle parts after ended
    · split
      · exact .bind .advance fun _ => .bind (.fractionDigits atEnd) fun _ => .pure _
      · exact .pure _
    · split
      · exact .bind .advance fun _ => .bind (.exponentPart atEnd) fun _ => .pure _
      · exact .bind .advance fun _ => .bind (.exponentPart atEnd) fun _ => .pure _
      · exact .pure _
  have digits := wholeDigits_lt begun
  omega

/-- The problem of a text that ends within a number matters only then. -/
theorem wholeDigits_refines (atEnd other : Problem) :
    Refines Eq (wholeDigits atEnd) (wholeDigits other) := by
  refine .bind_same _ fun seen => ?_
  split
  · exact .of_stops fun _ => ⟨_, rfl⟩
  · exact .refl _
  · exact .refl _

theorem fractionDigits_refines (atEnd other : Problem) :
    Refines Eq (fractionDigits atEnd) (fractionDigits other) := by
  refine .bind_same _ fun seen => ?_
  split
  · exact .of_stops fun _ => ⟨_, rfl⟩
  · exact .refl _

theorem numberParts_refines (atEnd other : Problem) :
    Refines Eq (numberParts atEnd) (numberParts other) := by
  refine .bind_same _ fun negative => (wholeDigits_refines atEnd other).bind ?_
  rintro whole _ rfl
  refine Refines.bind (show Refines Eq _ _ from .bind_same _ fun seen => ?_) ?_
  · split
    · refine .bind_same _ fun _ => (fractionDigits_refines atEnd other).bind ?_
      rintro fraction _ rfl
      exact .refl _
    · exact .refl _
  · rintro fraction _ rfl
    refine Refines.bind (show Refines Eq _ _ from .bind_same _ fun seen => ?_) ?_
    · have exponent : Refines Eq (exponentPart atEnd) (exponentPart other) := by
        refine .bind_same _ fun _ => .bind_same _ fun _ => (fractionDigits_refines atEnd other).bind ?_
        rintro digits _ rfl
        exact .refl _
      have wrapped : Refines Eq (do return some (← exponentPart atEnd))
          (do return some (← exponentPart other)) := exponent.bind fun _ _ same => same ▸ .refl _
      split
      · exact .bind_same _ fun _ => wrapped
      · exact .bind_same _ fun _ => wrapped
      · exact .refl _
    · rintro exponent _ rfl
      exact .refl _

theorem realNumber_refines (negative : Bool) (significand : Nat) (exponent : Int) :
    Refines (fun _ _ => True) (realNumber negative significand exponent) (pure ()) := by
  unfold realNumber
  split
  · exact .pure trivial
  · exact .of_stops fun _ => ⟨_, rfl⟩

/-- The value of a number does not depend on what follows. -/
theorem numberValue_refines (parts : NumberParts) :
    Refines (fun _ _ => True) (numberValue parts) (pure ()) := by
  unfold numberValue
  dsimp only
  split
  · unfold scaledNumber
    dsimp only
    split_ifs
    · exact .pure trivial
    · exact .of_stops fun _ => ⟨_, rfl⟩
    · exact realNumber_refines _ _ _
    · exact realNumber_refines _ _ _
  · split_ifs
    · exact realNumber_refines _ _ _
    · unfold wholeNumber
      split_ifs
      · exact .pure trivial
      · exact realNumber_refines _ _ _
      · exact .pure trivial

theorem number_refines : Refines (fun _ _ => True) number skipNumber :=
  (numberParts_refines _ _).bind fun parts _ _ => numberValue_refines parts

/-! ## Strings -/

theorem pairChar_ok {expected : Char} {cursor after : Cursor}
    (taken : pairChar expected cursor = .ok ((), after)) :
    ∃ rest position, cursor = ⟨expected :: rest, position⟩ ∧
      after = ⟨rest, position.past expected⟩ := by
  rcases cursor with ⟨_ | ⟨c, rest⟩, position⟩
  · cases taken
  · rw [pairChar, peek_bind] at taken
    dsimp only at taken
    split_ifs at taken with same
    · subst same
      obtain ⟨_, rfl⟩ := Prod.mk.inj (Except.ok.inj taken)
      exact ⟨rest, position, rfl, rfl⟩
    · cases taken

/-- An escape is one escape to skip, or two if it is a surrogate pair. -/
theorem escape_skips {cursor after : Cursor} {c : Char} (taken : escape cursor = .ok (c, after)) :
    skipEscape cursor = .ok ((), after) ∨
      ∃ rest position, skipEscape cursor = .ok ((), ⟨'\\' :: rest, position⟩) ∧
        skipEscape ⟨rest, position.past '\\'⟩ = .ok ((), after) := by
  rcases cursor with ⟨_ | ⟨letter, rest⟩, position⟩
  · cases taken
  · rw [escape, peek_bind] at taken
    rw [skipEscape, peek_bind]
    generalize ahead : some letter = next at taken ⊢
    split at taken
    · cases ahead
    · obtain rfl := Option.some.inj ahead
      rw [advance_bind] at taken ⊢
      obtain ⟨leading, middle, quad, more⟩ := bind_ok_iff.mp taken
      have first : (hexQuad >>= fun _ => pure ()) ⟨rest, position.past 'u'⟩ = .ok ((), middle) :=
        bind_ok quad
      split_ifs at more
      · cases more
      · -- The second half of a surrogate pair is an escape of its own when it is skipped.
        obtain ⟨_, _, backslash, behind⟩ := bind_ok_iff.mp more
        obtain ⟨_, _, letter, further⟩ := bind_ok_iff.mp behind
        obtain ⟨trailing, last, quad', final⟩ := bind_ok_iff.mp further
        obtain ⟨tail, place, rfl, rfl⟩ := pairChar_ok backslash
        obtain ⟨others, _, same, rfl⟩ := pairChar_ok letter
        obtain ⟨rfl, rfl⟩ := Cursor.mk.inj same
        refine .inr ⟨_, place, first, ?_⟩
        split_ifs at final
        · obtain ⟨_, rfl⟩ := Prod.mk.inj (Except.ok.inj final)
          rw [peek_bind]
          exact (advance_bind ..).trans (bind_ok quad')
        · cases final
      · obtain ⟨_, rfl⟩ := Prod.mk.inj (Except.ok.inj more)
        exact .inl first
    · next other differs =>
      left
      cases stands : simpleEscape? other with
      | none =>
        simp only [stands] at taken
        cases taken
      | some char =>
        simp only [stands] at taken ⊢
        obtain ⟨_, rfl⟩ := Prod.mk.inj (Except.ok.inj taken)
        rfl

theorem skipStringChars_of_stringChars {steps others : Steps} {cursor after : Cursor}
    {chars : List Char} (taken : stringChars steps cursor = .ok (chars, after))
    (enough : cursor.rest.length < others.length) :
    skipStringChars others cursor = .ok ((), after) := by
  induction steps generalizing others cursor chars with
  | nil => cases taken
  | cons step steps ih =>
    obtain ⟨other, others, rfl⟩ := List.exists_cons_of_length_pos (Nat.zero_lt_of_lt enough)
    rcases cursor with ⟨_ | ⟨c, rest⟩, position⟩
    · cases taken
    · rw [stringChars, peek_bind] at taken
      rw [skipStringChars, peek_bind]
      generalize ahead : some c = next at taken ⊢
      split at taken
      · cases ahead
      · obtain ⟨_, rfl⟩ := Prod.mk.inj (Except.ok.inj taken)
        rfl
      · obtain rfl := Option.some.inj ahead
        rw [advance_bind] at taken ⊢
        obtain ⟨char, middle, escaped, more⟩ := bind_ok_iff.mp taken
        obtain ⟨behind, last, ended, built⟩ := bind_ok_iff.mp more
        obtain ⟨_, rfl⟩ := Prod.mk.inj (Except.ok.inj built)
        rw [List.length_cons, List.length_cons] at enough
        rcases escape_skips escaped with one | ⟨tail, place, first, second⟩
        · have shorter := Shrinks.skipEscape _ _ _ one
          rw [bind_ok one]
          exact ih ended (by dsimp only at shorter; omega)
        · have shorter := Shrinks.skipEscape _ _ _ first
          have shorter' := Shrinks.skipEscape _ _ _ second
          simp only [List.length_cons] at shorter shorter'
          obtain ⟨other', others, rfl⟩ := List.exists_cons_of_length_pos
            (show 0 < others.length by omega)
          rw [List.length_cons] at enough
          rw [bind_ok first, skipStringChars, peek_bind]
          change (advance >>= fun _ => skipEscape >>= fun _ => skipStringChars others) _ = _
          rw [advance_bind, bind_ok second]
          exact ih ended (by omega)
      · split_ifs at taken with control
        · cases taken
        · rw [advance_bind] at taken
          obtain ⟨behind, last, ended, built⟩ := bind_ok_iff.mp taken
          obtain ⟨_, rfl⟩ := Prod.mk.inj (Except.ok.inj built)
          simp only [control, if_false]
          rw [advance_bind]
          exact ih ended (Nat.lt_of_succ_lt_succ enough)

theorem stringBody_refines : Refines (fun _ _ => True) stringBody skipStringBody := by
  intro cursor text after taken
  obtain ⟨chars, middle, begun, built⟩ := bind_ok_iff.mp taken
  obtain ⟨_, rfl⟩ := Prod.mk.inj (Except.ok.inj built)
  exact ⟨(), skipStringChars_of_stringChars begun (Nat.lt_succ_self _), trivial⟩

theorem Shrinks.of_refines {related : α → β → Prop} {read : Reader α} {other : Reader β}
    (refines : Refines related read other) (shrinks : Shrinks other) : Shrinks read := by
  intro cursor a after taken
  obtain ⟨b, followed, _⟩ := refines cursor a after taken
  exact shrinks cursor b after followed

end TemplateLint.Json.Reader
