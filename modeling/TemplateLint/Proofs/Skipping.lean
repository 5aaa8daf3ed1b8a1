import Mathlib
import TemplateLint.Proofs.Scalars

/-! # Printed trees of texts are skipped

A record passes over the members that it does not know. What it skips has no bound on its depth, so
every printed tree of texts is passed over, however deep. The loop counts steps but not levels: one
step passes a text or opens an object, and never more steps are used than characters are passed.
-/

namespace TemplateLint.Json.Reader

theorem skipStringBody_quoted (text : String) (rest : List Char) (position : Position) :
    ∃ after, skipStringBody ⟨text.toList.flatMap escapeChar ++ '"' :: rest, position⟩ =
      .ok ((), ⟨rest, after⟩) := by
  obtain ⟨after, taken⟩ := stringBody_quoted text rest position
  obtain ⟨_, skipped, _⟩ := stringBody_refines _ _ _ taken
  exact ⟨after, skipped⟩

/-! ## Members -/

/-- What is left to skip behind a value inside open containers. -/
def skipRest (steps : Steps) (frames : List Frame) (afterItem : Bool) : Reader Unit := do
  let frames ← skipEnds frames afterItem
  match frames with
  | [] => return ()
  | .list :: _ => skipLoop steps frames
  | .object :: _ =>
    skipKey
    skipLoop steps frames

section

variable {blank : List Char} (allBlank : ∀ c ∈ blank, Cursor.isBlank c = true)

include allBlank

theorem skipKey_quoted (name : String) (rest : List Char) (position : Position) :
    ∃ after, skipKey ⟨blank ++ ((quote name).toList ++ ':' :: rest), position⟩ =
      .ok ((), ⟨rest, after⟩) := by
  rw [toList_quote_append]
  obtain ⟨middle, passed⟩ := blanks_append allBlank (c := '"') rfl
    (name.toList.flatMap escapeChar ++ '"' :: ':' :: rest) position
  obtain ⟨after, skipped⟩ := skipStringBody_quoted name (':' :: rest) (middle.past '"')
  have colon : colon ⟨':' :: rest, after⟩ = .ok ((), ⟨rest, after.past ':'⟩) := rfl
  refine ⟨after.past ':', ?_⟩
  rw [skipKey, bind_ok passed, peek_bind]
  change (advance >>= fun _ => skipStringBody >>= _) _ = _
  rw [advance_bind, bind_ok skipped]
  exact colon

theorem skipLoop_string (step : Char) (steps : Steps) (frames : List Frame) (text : String)
    (rest : List Char) (position : Position) :
    ∃ after, skipLoop (step :: steps) frames ⟨blank ++ ((quote text).toList ++ rest), position⟩ =
      skipRest steps frames true ⟨rest, after⟩ := by
  rw [toList_quote_append]
  obtain ⟨middle, passed⟩ := blanks_append allBlank (c := '"') rfl
    (text.toList.flatMap escapeChar ++ '"' :: rest) position
  obtain ⟨after, skipped⟩ := skipStringBody_quoted text rest (middle.past '"')
  have started : skipStart ⟨blank ++ '"' :: (text.toList.flatMap escapeChar ++ '"' :: rest),
      position⟩ = .ok (none, ⟨rest, after⟩) := by
    rw [skipStart, bind_ok passed, peek_bind]
    change (advance >>= fun _ => skipStringBody >>= _) _ = _
    rw [advance_bind, bind_ok skipped]
    rfl
  refine ⟨after, ?_⟩
  rw [skipLoop, bind_ok started]
  rfl

theorem skipLoop_open (step : Char) (steps : Steps) (frames : List Frame) (rest : List Char)
    (position : Position) :
    ∃ after, skipLoop (step :: steps) frames ⟨blank ++ '\x7b' :: rest, position⟩ =
      skipRest steps (.object :: frames) false ⟨rest, after⟩ := by
  obtain ⟨middle, passed⟩ := blanks_append allBlank (c := '\x7b') rfl rest position
  have started : skipStart ⟨blank ++ '\x7b' :: rest, position⟩ =
      .ok (some .object, ⟨rest, middle.past '\x7b'⟩) := by
    rw [skipStart, bind_ok passed]
    rfl
  refine ⟨middle.past '\x7b', ?_⟩
  rw [skipLoop, bind_ok started]
  rfl

theorem skipRest_close (steps : Steps) (frames : List Frame) (afterItem : Bool) (rest : List Char)
    (position : Position) :
    ∃ after, skipRest steps (.object :: frames) afterItem ⟨blank ++ '\x7d' :: rest, position⟩ =
      skipRest steps frames true ⟨rest, after⟩ := by
  obtain ⟨middle, passed⟩ := blanks_append allBlank (c := '\x7d') rfl rest position
  have closed : skipEnds (.object :: frames) afterItem ⟨blank ++ '\x7d' :: rest, position⟩ =
      skipEnds frames true ⟨rest, middle.past '\x7d'⟩ := by
    rw [skipEnds, bind_ok passed]
    rfl
  refine ⟨middle.past '\x7d', ?_⟩
  rw [skipRest, skipRest]
  exact bind_congr_at closed _

end

/-- Skipping comes to the value of the next member. -/
theorem skipRest_line (level : Nat) (steps : Steps) (frames : List Frame) (first : Bool)
    (name : String) (rest : List Char) (position : Position) :
    ∃ after, skipRest steps (.object :: frames) (!first) ⟨separator first ++
      ((Form.pretty.newline level).toList ++ ((quote name).toList ++ ':' :: rest)), position⟩ =
        skipLoop steps (.object :: frames) ⟨rest, after⟩ := by
  have opened : ∃ blank middle, (∀ c ∈ blank, Cursor.isBlank c = true) ∧
      skipEnds (.object :: frames) (!first) ⟨separator first ++
        ((Form.pretty.newline level).toList ++ ((quote name).toList ++ ':' :: rest)), position⟩ =
          .ok (.object :: frames, ⟨blank ++ ((quote name).toList ++ ':' :: rest), middle⟩) := by
    cases first with
    | true =>
      rw [toList_quote_append]
      obtain ⟨middle, passed⟩ := blanks_append (isBlank_newline level) (c := '"') rfl
        (name.toList.flatMap escapeChar ++ '"' :: ':' :: rest) position
      refine ⟨[], middle, by simp, ?_⟩
      rw [skipEnds]
      exact bind_ok passed
    | false => exact ⟨(Form.pretty.newline level).toList, _, isBlank_newline level, rfl⟩
  obtain ⟨blank, middle, allBlank, opened⟩ := opened
  obtain ⟨after, skipped⟩ := skipKey_quoted allBlank name rest middle
  refine ⟨after, ?_⟩
  rw [skipRest, bind_ok opened]
  exact bind_ok skipped

/-- Skipping passes over a text with blanks before it, and takes no more steps than it has
characters. -/
def Skips (text : String) : Prop :=
  ∀ steps frames blank, (∀ c ∈ blank, Cursor.isBlank c = true) → ∀ rest position,
    text.toList.length < steps.length → ∃ others after,
      steps.length ≤ others.length + text.toList.length ∧
      skipLoop steps frames ⟨blank ++ (text.toList ++ rest), position⟩ =
        skipRest others frames true ⟨rest, after⟩

/-- Members are passed over if their values are, by induction on them. -/
theorem skipRest_inside {level : Nat} {members : Members}
    (each : ∀ item ∈ members, Skips (render .pretty (level + 1) item.2)) (first : Bool)
    (steps : Steps) (frames : List Frame) (rest : List Char) (position : Position)
    (enough : (inside level first members).length < steps.length) :
    ∃ others after, steps.length ≤ others.length + (inside level first members).length ∧
      skipRest steps (.object :: frames) (!first)
        ⟨inside level first members ++ '\x7d' :: rest, position⟩ =
          skipRest others frames true ⟨rest, after⟩ := by
  induction members generalizing first steps position with
  | nil =>
    obtain ⟨after, closed⟩ := skipRest_close (isBlank_inside_nil level first) steps frames (!first)
      rest position
    exact ⟨steps, after, Nat.le_add_right .., closed⟩
  | cons item members ih =>
    rcases item with ⟨name, value⟩
    rw [inside_cons]
    obtain ⟨start, begun⟩ := skipRest_line (level + 1) steps frames first name
      ([' '] ++ ((render .pretty (level + 1) value).toList ++
        (inside level false members ++ '\x7d' :: rest))) position
    have lengths : (render .pretty (level + 1) value).toList.length +
        (inside level false members).length ≤
          (inside level first ((name, value) :: members)).length := by
      simp only [inside, List.length_append, List.length_cons]
      omega
    have skips : Skips (render .pretty (level + 1) value) := each _ (List.mem_cons_self ..)
    obtain ⟨middle, behind, bound, passed⟩ := skips steps (.object :: frames) [' ']
      (by simp [Cursor.isBlank]) (inside level false members ++ '\x7d' :: rest) start (by omega)
    obtain ⟨others, after, otherBound, finished⟩ :=
      ih (fun item among => each item (List.mem_cons_of_mem _ among)) false middle behind (by omega)
    exact ⟨others, after, by omega, begun.trans (passed.trans finished)⟩

end TemplateLint.Json.Reader

namespace TemplateLint.Json

open Reader

theorem TextTree.skips {depth : Nat} {value : Json} (tree : TextTree depth value) (level : Nat) :
    Skips (render .pretty level value) := by
  induction tree generalizing level with
  | text depth text =>
    intro steps frames blank allBlank rest position enough
    obtain ⟨step, steps, rfl⟩ := List.exists_cons_of_length_pos (Nat.zero_lt_of_lt enough)
    obtain ⟨after, passed⟩ := skipLoop_string allBlank step steps frames text rest position
    refine ⟨steps, after, ?_, passed⟩
    simp [render, quote]
  | @object depth members distinct _ ih =>
    intro steps frames blank allBlank rest position enough
    obtain ⟨step, steps, rfl⟩ := List.exists_cons_of_length_pos (Nat.zero_lt_of_lt enough)
    have length : (render .pretty level (.object members)).toList.length =
        (inside level true members).length + 2 := by
      simpa using congrArg List.length (toList_render_object level members [])
    rw [length] at enough ⊢
    rw [List.length_cons] at enough ⊢
    rw [toList_render_object]
    obtain ⟨start, begun⟩ := skipLoop_open allBlank step steps frames
      (inside level true members ++ '\x7d' :: rest) position
    obtain ⟨others, after, bound, passed⟩ := skipRest_inside
      (fun item among => ih item among (level + 1)) true steps frames rest start (by omega)
    exact ⟨others, after, by omega, begun.trans passed⟩

/-- A printed tree of texts is passed over. -/
theorem TextTree.skip_takes {depth : Nat} {value : Json} (tree : TextTree depth value)
    (level : Nat) : Reader.skip.Takes (render .pretty level value) () := by
  intro blank allBlank rest position
  obtain ⟨others, after, _, passed⟩ := tree.skips level
    (' ' :: (blank ++ ((render .pretty level value).toList ++ rest))) [] blank allBlank rest position
    (by simp only [List.length_cons, List.length_append]; omega)
  exact ⟨after, passed⟩

end TemplateLint.Json
