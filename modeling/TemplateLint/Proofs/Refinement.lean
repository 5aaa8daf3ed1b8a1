import Mathlib
import TemplateLint.Proofs.ReadBack

/-! # Readers that follow each other

A reader refines another one if whatever it takes the other takes too, up to the same place, with a
related answer. Readers that are built alike refine each other if their parts do; the loops over
items and members are followed step by step.
-/

namespace TemplateLint.Json.Reader

variable {α β γ δ σ τ : Type}

/-- Whatever a reader takes, another one takes as well, with a related answer. -/
def Refines (related : α → β → Prop) (read : Reader α) (other : Reader β) : Prop :=
  ∀ cursor a after, read cursor = .ok (a, after) →
    ∃ b, other cursor = .ok (b, after) ∧ related a b

namespace Refines

variable {related : α → β → Prop} {read : Reader α} {other : Reader β}

theorem of_stops (stops : ∀ cursor, ∃ stop, read cursor = .error stop) :
    Refines related read other := by
  intro cursor a after taken
  obtain ⟨stop, stopped⟩ := stops cursor
  rw [stopped] at taken
  cases taken

theorem refl (read : Reader α) : Refines Eq read read :=
  fun _ a _ taken => ⟨a, taken, rfl⟩

/-- What the other reader answers may be known to have a property. -/
theorem and_right {P : β → Prop} (refines : Refines related read other)
    (yields : ∀ cursor b after, other cursor = .ok (b, after) → P b) :
    Refines (fun a b => related a b ∧ P b) read other := by
  intro cursor a after taken
  obtain ⟨b, followed, holds⟩ := refines cursor a after taken
  exact ⟨b, followed, holds, yields cursor b after followed⟩

theorem pure {a : α} {b : β} (holds : related a b) :
    Refines related (Pure.pure a) (Pure.pure b) := by
  rintro cursor _ _ ⟨⟩
  exact ⟨b, rfl, holds⟩

theorem bind {next : α → Reader γ} {following : β → Reader δ} {result : γ → δ → Prop}
    (first : Refines related read other)
    (rest : ∀ a b, related a b → Refines result (next a) (following b)) :
    Refines result (read >>= next) (other >>= following) := by
  intro cursor c after taken
  obtain ⟨a, middle, begun, ended⟩ := bind_ok_iff.mp taken
  obtain ⟨b, followed, holds⟩ := first cursor a middle begun
  obtain ⟨d, finished, related⟩ := rest a b holds middle c after ended
  exact ⟨d, (bind_ok followed).trans finished, related⟩

/-- After the same reader on both sides. -/
theorem bind_same {next : γ → Reader α} {following : γ → Reader β} (first : Reader γ)
    (rest : ∀ c, Refines related (next c) (following c)) :
    Refines related (first >>= next) (first >>= following) :=
  (refl first).bind fun c _ same => same ▸ rest c

theorem placing (refines : Refines related read other) (close closing : Cursor → Cursor) :
    Refines related (Reader.placing close read) (Reader.placing closing other) := by
  intro cursor a after taken
  obtain ⟨b, followed, holds⟩ := refines cursor a after (of_placing_ok taken)
  exact ⟨b, placing_ok followed, holds⟩

theorem bounded {loop : Steps → Reader α} {following : Steps → Reader β}
    (refines : ∀ steps, Refines related (loop steps) (following steps)) :
    Refines related (Reader.bounded loop) (Reader.bounded following) :=
  fun cursor => refines (' ' :: cursor.rest) cursor

/-! ## Lists -/

/-- A loop over items follows another one item by item. -/
theorem itemLoop (item : Refines related read other) (steps : Steps) (first : Bool) :
    Refines (List.Forall₂ related) (Reader.itemLoop read steps first)
      (Reader.itemLoop other steps first) := by
  induction steps generalizing first with
  | nil => exact of_stops fun _ => ⟨_, rfl⟩
  | cons step steps ih =>
    have more : Refines (List.Forall₂ related)
        (do return (← read) :: (← Reader.itemLoop read steps false))
        (do return (← other) :: (← Reader.itemLoop other steps false)) :=
      item.bind fun a b head => (ih false).bind fun as bs tail => .pure (.cons head tail)
    refine bind_same _ fun _ => bind_same _ fun seen => ?_
    split
    · exact of_stops fun _ => ⟨_, rfl⟩
    · exact bind_same _ fun _ => .pure .nil
    · split_ifs
      · exact more
      · refine bind_same _ fun _ => bind_same _ fun _ => bind_same _ fun seen => ?_
        split
        · exact of_stops fun _ => ⟨_, rfl⟩
        · exact of_stops fun _ => ⟨_, rfl⟩
        · exact more
      · exact of_stops fun _ => ⟨_, rfl⟩

theorem list (item : Refines related read other) :
    Refines (List.Forall₂ related) (Reader.list read) (Reader.list other) :=
  placing (bind_same _ fun _ => bounded fun steps => item.itemLoop steps true) _ _

end Refines

/-! ## Objects -/

section

variable {member : String → σ → Except DecodeError (Reader σ)}
  {following : String → τ → Except DecodeError (Reader τ)} (related : σ → τ → Prop)
  (calls : ∀ name gathered others, related gathered others → ∀ read,
    member name gathered = .ok read →
      ∃ other, following name others = .ok other ∧ Refines related read other)

include calls

theorem entry_refines {gathered : σ} {others : τ} (start : related gathered others) :
    Refines related (entry member gathered) (entry following others) := by
  refine .bind_same _ fun name => ?_
  split
  next error _ => exact .of_stops fun _ => ⟨_, rfl⟩
  next read called =>
    obtain ⟨other, followed, refines⟩ := calls name gathered others start read called
    rw [followed]
    exact .bind_same _ fun _ => refines

/-- A loop over members follows another one member by member. -/
theorem memberLoop_refines (steps : Steps) (first : Bool) {gathered : σ} {others : τ}
    (start : related gathered others) :
    Refines related (memberLoop member steps first gathered)
      (memberLoop following steps first others) := by
  induction steps generalizing first gathered others with
  | nil => exact .of_stops fun _ => ⟨_, rfl⟩
  | cons step steps ih =>
    have more : Refines related (entry member gathered >>= memberLoop member steps false)
        (entry following others >>= memberLoop following steps false) :=
      (entry_refines related calls start).bind fun _ _ next => ih false next
    refine .bind_same _ fun _ => .bind_same _ fun seen => ?_
    split
    · exact .of_stops fun _ => ⟨_, rfl⟩
    · exact .pure start
    · split_ifs
      · exact more
      · exact .of_stops fun _ => ⟨_, rfl⟩
      · refine .bind_same _ fun _ => .bind_same _ fun _ => .bind_same _ fun seen => ?_
        split
        · exact .of_stops fun _ => ⟨_, rfl⟩
        · exact .of_stops fun _ => ⟨_, rfl⟩
        · exact more
        · exact .of_stops fun _ => ⟨_, rfl⟩
      · exact .of_stops fun _ => ⟨_, rfl⟩

theorem fields_refines {start : σ} {begin : τ} (started : related start begin)
    {finish : σ → Except DecodeError α} {complete : τ → Except DecodeError β}
    {result : α → β → Prop}
    (finishes : ∀ gathered others, related gathered others → ∀ a, finish gathered = .ok a →
      ∃ b, complete others = .ok b ∧ result a b) :
    Refines result (fields member start finish) (fields following begin complete) := by
  refine .placing (.bind_same _ fun _ => ?_) _ _
  refine (Refines.bounded fun steps => memberLoop_refines related calls steps true started).bind ?_
  intro gathered others holds
  split
  next => exact .of_stops fun _ => ⟨_, rfl⟩
  next a finished =>
    obtain ⟨b, completed, related⟩ := finishes gathered others holds a finished
    rw [completed]
    exact .bind_same _ fun _ => .pure related

end

/-- Whole texts are read alike as well. -/
theorem Refines.readText {related : α → β → Prop} {read : Reader α} {other : Reader β}
    (refines : Refines related read other) {text : String} {a : α}
    (taken : Json.readText read text = .ok a) :
    ∃ b, Json.readText other text = .ok b ∧ related a b := by
  obtain ⟨after, taken, ended⟩ := readText_eq_ok_iff.mp taken
  obtain ⟨b, followed, holds⟩ := refines _ a after taken
  exact ⟨b, readText_eq_ok_iff.mpr ⟨after, followed, ended⟩, holds⟩

end TemplateLint.Json.Reader
