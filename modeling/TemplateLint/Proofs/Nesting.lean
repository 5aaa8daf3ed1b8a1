import Mathlib
import TemplateLint.Proofs.Candidates

/-! # Elements that stay open

Elements are opened and closed one after another, and closing may also happen when none is open. A
push is matched by the first pop behind it with as many pops as pushes in between, which is a fact
about the sequence of moves alone and needs no stack. The open elements are those of the pushes that
are not matched, and although only the innermost one is asked whether a place is ignored, it answers
for all of them.
-/

namespace TemplateLint.Enclosing

/-- What may happen to the open elements. -/
inductive Move where
  | push (tag : String)
  | pop
deriving DecidableEq, Repr

/-- The open elements after a move. -/
def move (enclosing : Enclosing) : Move → Enclosing
  | .push tag => enclosing.push tag
  | .pop => enclosing.pop

/-- The open elements after one move after another. -/
def run (enclosing : Enclosing) (moves : List Move) : Enclosing := moves.foldl move enclosing

theorem run_append (enclosing : Enclosing) (moves further : List Move) :
    enclosing.run (moves ++ further) = (enclosing.run moves).run further :=
  List.foldl_append ..

/-! ## Matching -/

/-- Moves that close all that they open, and nothing else. -/
inductive Balanced : List Move → Prop where
  | nil : Balanced []
  | nest (tag : String) {inner rest : List Move} (first : Balanced inner) (later : Balanced rest) :
      Balanced (.push tag :: (inner ++ .pop :: rest))

/-- Whether a push is closed by the moves behind it. -/
def Closed (behind : List Move) : Prop :=
  ∃ inner later, Balanced inner ∧ behind = inner ++ .pop :: later

/-- How many pops among the moves close nothing that the moves have opened. -/
def surplus : List Move → Nat
  | [] => 0
  | .push _ :: rest => surplus rest - 1
  | .pop :: rest => surplus rest + 1

theorem surplus_append {moves : List Move} (balanced : Balanced moves) (later : List Move) :
    surplus (moves ++ later) = surplus later := by
  induction balanced generalizing later with
  | nil => rfl
  | nest tag _ _ first second =>
    rw [List.cons_append, List.append_assoc, surplus, first, List.cons_append, surplus, second]
    rfl

/-- The first pop that closes nothing has balanced moves before it. -/
theorem exists_of_surplus {moves : List Move} {count : Nat} (some : surplus moves = count + 1) :
    ∃ inner later, Balanced inner ∧ moves = inner ++ .pop :: later ∧ surplus later = count := by
  induction size : moves.length using Nat.strong_induction_on generalizing moves count with
  | h size ih =>
    cases moves with
    | nil => cases some
    | cons first rest =>
      rw [List.length_cons] at size
      cases first with
      | pop => exact ⟨[], rest, .nil, rfl, Nat.succ.inj some⟩
      | push tag =>
        -- The push uses up the first such pop behind it, so the one looked for is the second.
        have two : surplus rest = count + 1 + 1 := by
          rw [surplus] at some
          omega
        obtain ⟨inner, between, balanced, rfl, one⟩ := ih _ (by omega) two rfl
        rw [List.length_append, List.length_cons] at size
        obtain ⟨further, later, alsoBalanced, rfl, left⟩ := ih _ (by omega) one rfl
        refine ⟨_, later, .nest tag balanced alsoBalanced, ?_, left⟩
        rw [List.cons_append, List.append_assoc, List.cons_append]

theorem closed_iff (behind : List Move) : Closed behind ↔ 0 < surplus behind := by
  constructor
  · rintro ⟨inner, later, balanced, rfl⟩
    rw [surplus_append balanced, surplus]
    exact Nat.succ_pos _
  · intro positive
    obtain ⟨count, some⟩ := Nat.exists_eq_add_of_lt positive
    rw [Nat.zero_add] at some
    obtain ⟨inner, later, balanced, whole, -⟩ := exists_of_surplus some
    exact ⟨inner, later, balanced, whole⟩

instance (behind : List Move) : Decidable (Closed behind) :=
  decidable_of_iff _ (closed_iff behind).symm

/-- The tags of the pushes that are not closed, in the order of the moves. -/
def unmatched : List Move → List String
  | [] => []
  | .push tag :: rest => if Closed rest then unmatched rest else tag :: unmatched rest
  | .pop :: rest => unmatched rest

/-! ## Runs -/

/-- Moves inside open elements close as many of them as they have pops that close none of their own,
and leave their unmatched pushes open. -/
theorem run_ofTags (tags : List String) (moves : List Move) :
    (ofTags tags).run moves =
      ofTags ((unmatched moves).reverse ++ tags.drop (surplus moves)) := by
  induction moves generalizing tags with
  | nil => rfl
  | cons first rest ih =>
    cases first with
    | pop =>
      have popped : (ofTags tags).move .pop = ofTags tags.tail := by cases tags <;> rfl
      have same : (ofTags tags).run (.pop :: rest) = (ofTags tags.tail).run rest := by
        rw [← popped]
        rfl
      rw [same, ih, unmatched, surplus, ← List.drop_one, List.drop_drop, Nat.add_comm]
    | push tag =>
      have same : (ofTags tags).run (.push tag :: rest) = (ofTags (tag :: tags)).run rest := rfl
      rw [same, ih, unmatched, surplus]
      split_ifs with closed
      · rw [closed_iff] at closed
        obtain ⟨count, some⟩ := Nat.exists_eq_add_of_lt closed
        rw [some, Nat.zero_add, List.drop_succ_cons, Nat.add_sub_cancel]
      · have none : surplus rest = 0 := by
          rw [closed_iff] at closed
          omega
        simp [none]

theorem run_nil (moves : List Move) :
    run [] moves = ofTags (unmatched moves).reverse := by
  have whole := run_ofTags [] moves
  rwa [List.drop_nil, List.append_nil] at whole

theorem map_tag_ofTags (tags : List String) : (ofTags tags).map OpenElement.tag = tags := by
  induction tags with
  | nil => rfl
  | cons tag tags ih => rw [ofTags, push, List.map_cons, ih]

/-- Balanced moves leave the open elements as they are, with all that these remember. -/
theorem run_balanced {moves : List Move} (balanced : Balanced moves) (enclosing : Enclosing) :
    enclosing.run moves = enclosing := by
  induction balanced generalizing enclosing with
  | nil => rfl
  | nest tag _ _ first second =>
    have opened : ∀ rest, enclosing.run (.push tag :: rest) = (enclosing.push tag).run rest :=
      fun _ => rfl
    have closed : ∀ rest, (enclosing.push tag).run (.pop :: rest) = enclosing.run rest :=
      fun _ => rfl
    rw [opened, run_append, first, closed, second]

/-- After any moves, the open elements are those of the unmatched pushes, innermost first. The
innermost one is the last of them, and a place is ignored if any of them is. A push and a pop, and
any moves that are balanced, change nothing. -/
theorem open_after_moves (moves : List Move) :
    (run [] moves).map OpenElement.tag = (unmatched moves).reverse ∧
    (run [] moves).tag? = (unmatched moves).getLast? ∧
    ((run [] moves).isIgnored = true ↔ ∃ tag ∈ unmatched moves, tag ∈ ignoredElements) ∧
    (∀ tag, run [] (moves ++ [.push tag, .pop]) = run [] moves) ∧
    ∀ between, Balanced between → run [] (moves ++ between) = run [] moves := by
  have restored : ∀ between, Balanced between → run [] (moves ++ between) = run [] moves :=
    fun between balanced => by rw [run_append, run_balanced balanced]
  refine ⟨?_, ?_, ?_, fun tag => restored _ (.nest tag .nil .nil), restored⟩
  · rw [run_nil, map_tag_ofTags]
  · rw [run_nil, tag?_ofTags, List.head?_reverse]
  · rw [run_nil, isIgnored_ofTags, Visible]
    simp

/-- A `pre` that is closed and one that is open, behind a pop with nothing to close. -/
theorem open_inside_second_pre :
    unmatched [.pop, .push "div", .push "pre", .pop, .push "pre", .push "b"] = ["div", "pre", "b"] ∧
    (run [] [.pop, .push "div", .push "pre", .pop, .push "pre", .push "b"]).isIgnored = true ∧
    Balanced [.push "i", .push "style", .pop, .pop] ∧
    run [] ([.pop, .push "div", .push "pre", .pop, .push "pre", .push "b"] ++
        [.push "i", .push "style", .pop, .pop]) =
      run [] [.pop, .push "div", .push "pre", .pop, .push "pre", .push "b"] := by
  have balanced : Balanced [.push "i", .push "style", .pop, .pop] :=
    .nest "i" (.nest "style" .nil .nil) .nil
  obtain ⟨-, -, ignored, -, restored⟩ :=
    open_after_moves [.pop, .push "div", .push "pre", .pop, .push "pre", .push "b"]
  have open_tags :
      unmatched [.pop, .push "div", .push "pre", .pop, .push "pre", .push "b"] =
        ["div", "pre", "b"] := by
    decide
  refine ⟨open_tags, ignored.mpr ⟨"pre", ?_, by decide⟩, balanced, restored _ balanced⟩
  rw [open_tags]
  decide

end TemplateLint.Enclosing
