import Mathlib
import TemplateLint.Document.Listing
import TemplateLint.Proofs.Files

/-! # What patterns leave out

The exclusions of a list of patterns leave out what one of the patterns does: one without wildcards
the paths whose components start with those of a path, any other one the paths that it matches.
-/

namespace TemplateLint.Exclusions

/-- A path that a pattern leaves out. -/
inductive LeavesOut (root path : Path) (pattern : String) : Prop where
  | below (literal : isGlob pattern = false)
      (inside : (root.join ⟨pattern⟩).components <+: path.components)
  | matched (glob : Glob) (wild : isGlob pattern = true) (read : Glob.parse pattern = .ok glob)
      (accepted : glob.accepts (path.relativeTo root).spelling = true ∨
        glob.accepts path.spelling = true)

/-- A pattern without wildcards leaves out what lies below the path that it spells. -/
theorem leavesOut_iff_of_literal {root path : Path} {pattern : String}
    (literal : isGlob pattern = false) :
    LeavesOut root path pattern ↔ path.startsWith (root.join ⟨pattern⟩) = true := by
  rw [Path.startsWith, List.isPrefixOf_iff_prefix]
  constructor
  · rintro (⟨-, inside⟩ | ⟨-, wild, -, -⟩)
    · exact inside
    · rw [literal] at wild
      cases wild
  · exact .below literal

/-- Patterns of which all with wildcards can be read. -/
def Readable (patterns : List String) : Prop :=
  ∀ pattern ∈ patterns, isGlob pattern = true → ∃ glob, Glob.parse pattern = .ok glob

theorem exists_add (root : Path) (exclusions : Exclusions) {pattern : String}
    (readable : isGlob pattern = true → ∃ glob, Glob.parse pattern = .ok glob) :
    ∃ after, add root exclusions pattern = .ok after := by
  rw [add]
  split_ifs with wild
  · obtain ⟨glob, read⟩ := readable wild
    exact ⟨_, by rw [read]⟩
  · exact ⟨_, rfl⟩

theorem exists_ofPatterns (root : Path) {patterns : List String} (readable : Readable patterns) :
    ∃ exclusions, ofPatterns root patterns = .ok exclusions := by
  rw [ofPatterns]
  generalize ({} : Exclusions) = start
  induction patterns generalizing start with
  | nil => exact ⟨start, rfl⟩
  | cons pattern rest ih =>
    obtain ⟨first, later⟩ := List.forall_mem_cons.mp readable
    obtain ⟨next, added⟩ := exists_add root start first
    obtain ⟨after, taken⟩ := ih later next
    exact ⟨after, by rw [List.foldlM_cons, added]; exact taken⟩

variable {root : Path}

/-- One more pattern leaves out what was left out before, and what it leaves out itself. -/
theorem excludes_add {exclusions after : Exclusions} {pattern : String}
    (added : add root exclusions pattern = .ok after) (path : Path) :
    after.excludes root path = true ↔
      exclusions.excludes root path = true ∨ LeavesOut root path pattern := by
  rw [add] at added
  split_ifs at added with wild
  · cases read : Glob.parse pattern with
    | error error => simp [read] at added
    | ok glob =>
      simp only [read, Except.ok.injEq] at added
      have itself : LeavesOut root path pattern ↔
          glob.accepts (path.relativeTo root).spelling = true ∨
            glob.accepts path.spelling = true := by
        constructor
        · rintro (⟨literal, -⟩ | ⟨other, -, alsoRead, accepted⟩)
          · simp [wild] at literal
          · rw [read] at alsoRead
            cases alsoRead
            exact accepted
        · exact .matched glob wild read
      rw [itself, ← added]
      simp [excludes, or_assoc]
  · rw [leavesOut_iff_of_literal (by simpa using wild), ← Except.ok.inj added]
    simp [excludes, or_comm, or_left_comm]

theorem excludes_ofPatterns {patterns : List String} {exclusions : Exclusions}
    (read : ofPatterns root patterns = .ok exclusions) (path : Path) :
    exclusions.excludes root path = true ↔ ∃ pattern ∈ patterns, LeavesOut root path pattern := by
  have step : ∀ start : Exclusions, patterns.foldlM (add root) start = .ok exclusions →
      (exclusions.excludes root path = true ↔
        start.excludes root path = true ∨ ∃ pattern ∈ patterns, LeavesOut root path pattern) := by
    clear read
    induction patterns with
    | nil =>
      intro start taken
      obtain rfl := Except.ok.inj taken
      simp
    | cons pattern rest ih =>
      intro start taken
      rw [List.foldlM_cons] at taken
      obtain ⟨next, added, later⟩ := bind_eq_ok_iff.mp taken
      rw [ih next later, excludes_add added]
      simp [or_assoc]
  rw [step {} read]
  simp [excludes]

/-- A pattern leaves out what it does besides what the others leave out. -/
theorem excludes_iff_without {patterns : List String} {pattern : String}
    {exclusions fewer : Exclusions} (given : pattern ∈ patterns)
    (read : ofPatterns root patterns = .ok exclusions)
    (reread : ofPatterns root (patterns.filter (· ≠ pattern)) = .ok fewer) (path : Path) :
    exclusions.excludes root path = true ↔
      fewer.excludes root path = true ∨ LeavesOut root path pattern := by
  rw [excludes_ofPatterns read, excludes_ofPatterns reread]
  constructor
  · rintro ⟨other, among, out⟩
    by_cases same : other = pattern
    · exact .inr (same ▸ out)
    · exact .inl ⟨other, List.mem_filter.mpr ⟨among, by simpa using same⟩, out⟩
  · rintro (⟨other, among, out⟩ | out)
    · exact ⟨other, (List.mem_filter.mp among).1, out⟩
    · exact ⟨pattern, given, out⟩

end TemplateLint.Exclusions
