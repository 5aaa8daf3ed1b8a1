import Mathlib
import TemplateLint.Rule.Basic

/-! # What stripping keeps

Taking the entries of an allowlist out of a text joins what stood apart, but it takes away no
character that occurs in no entry. So a text with such a character, unless it is blank, is bare.
-/

namespace TemplateLint.Allowlist

open Text

/-- What follows a prefix, when the first character is already gone. -/
theorem drop_of_isPrefixOf {entry rest : List Char} {c : Char} (nonempty : entry ≠ [])
    (starts : entry.isPrefixOf (c :: rest) = true) :
    c :: rest = entry ++ rest.drop (entry.length - 1) := by
  obtain ⟨behind, whole⟩ := List.isPrefixOf_iff_prefix.mp starts
  cases entry with
  | nil => exact absurd rfl nonempty
  | cons first others =>
    rw [List.cons_append] at whole
    obtain ⟨rfl, rfl⟩ := List.cons.inj whole
    simp

/-- A character that is not in an entry is never taken out with it. -/
theorem count_removeFrom {entry : List Char} (nonempty : entry ≠ []) {c : Char} (foreign : c ∉ entry)
    (skipped : Nat) (text : List Char) :
    (removeFrom entry skipped text).count c = (text.drop skipped).count c := by
  induction text generalizing skipped with
  | nil => cases skipped <;> rfl
  | cons d rest ih =>
    cases skipped with
    | succ skipped => exact ih skipped
    | zero =>
      rw [removeFrom, List.drop_zero]
      split_ifs with starts
      · rw [ih, drop_of_isPrefixOf nonempty starts, List.count_append,
          List.count_eq_zero.mpr foreign, Nat.zero_add]
      · rw [List.count_cons, List.count_cons, ih, List.drop_zero]

theorem count_stripSteps {entry : List Char} (nonempty : entry ≠ []) {c : Char} (foreign : c ∉ entry)
    (steps : Nat) (text : List Char) : (stripSteps entry steps text).count c = text.count c := by
  induction steps generalizing text with
  | zero => rfl
  | succ steps ih =>
    rw [stripSteps]
    split_ifs
    · rw [ih, remove, count_removeFrom nonempty foreign, List.drop_zero]
    · rfl

theorem count_strip {entry : List Char} {c : Char} (foreign : c ∉ entry) (text : List Char) :
    (strip entry text).count c = text.count c := by
  rw [strip]
  split_ifs with empty
  · rfl
  · exact count_stripSteps (mt List.isEmpty_iff.mpr empty) foreign text.length text

theorem count_residue {entries : List String} {c : Char}
    (foreign : ∀ entry ∈ entries, c ∉ entry.toList) (text : List Char) :
    (residue entries text).count c = text.count c := by
  unfold residue
  induction entries generalizing text with
  | nil => rfl
  | cons entry others ih =>
    rw [List.foldl_cons, ih fun other present => foreign other (List.mem_cons_of_mem _ present)]
    exact count_strip (foreign entry (List.mem_cons_self ..)) text

/-- A text with a visible character that occurs in no entry is bare. -/
theorem bare?_of_foreign {entries : List String} {raw : String} {c : Char}
    (present : c ∈ raw.toList) (visible : isBlank c = false)
    (foreign : ∀ entry ∈ entries, c ∉ entry.toList) : bare? entries raw = some raw := by
  have left : c ∈ residue entries raw.toList := by
    rw [← List.count_pos_iff, count_residue foreign]
    exact List.count_pos_iff.mpr present
  have notAll : (residue entries raw.toList).all isBlank = false := by
    rw [List.all_eq_false]
    exact ⟨c, left, by simp [visible]⟩
  simp [bare?, notAll]

/-- A sorted allowlist has the nonempty entries of those given. -/
theorem mem_longestFirst {entries : List String} {entry : String} :
    entry ∈ longestFirst entries ↔ entry ∈ entries ∧ entry ≠ "" := by
  simp [longestFirst]

theorem mem_of_mem_longestFirst {entries : List String} {entry : String}
    (present : entry ∈ longestFirst entries) : entry ∈ entries :=
  (mem_longestFirst.mp present).1

theorem bare?_default_of_foreign {raw : String} {c : Char} (present : c ∈ raw.toList)
    (visible : isBlank c = false) (foreign : ∀ entry ∈ defaultEntries, c ∉ entry.toList) :
    bare? Rule.default.allowlist raw = some raw :=
  bare?_of_foreign present visible fun entry among => foreign entry (mem_of_mem_longestFirst among)

end TemplateLint.Allowlist
