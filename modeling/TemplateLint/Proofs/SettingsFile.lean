import Mathlib
import TemplateLint.Proofs.Remainders
import TemplateLint.Settings.Basic

/-! # Which settings file applies

Settings are looked for in a directory and, as its path is spelled, in the directories above it. A
step up takes the last component away, so there are as many directories above a path as it has
components behind the root. The search for settings ends in one of them or above the last, and the
bound on its steps is never reached. It finds the file in the nearest directory that has one, unless
a repository lies strictly below that directory.
-/

namespace TemplateLint

namespace Path

/-! ## Directories above a path -/

theorem toPath_parts (path : Path) : Parts.toPath path.parts = path := by
  obtain ⟨first, rest, cuts⟩ := path.exists_pieces
  have spelled : path = ⟨"/".intercalate (first :: rest)⟩ := by
    rw [← cuts, ← spelling_eq]
  have absolute := path.isAbsolute_iff_pieces
  rw [cuts] at absolute
  rw [parts, cuts]
  dsimp only
  by_cases begins : path.isAbsolute = true
  · obtain ⟨others, more, whole⟩ := absolute.mp begins
    obtain ⟨rfl, rfl⟩ := List.cons.inj whole
    rw [if_pos begins, spelled, String.intercalate_cons_of_ne_nil more, String.empty_append]
    rfl
  · rw [if_neg begins]
    by_cases dot : first = "."
    · rw [if_pos dot, toPath_current, spelled, dot]
    · rw [if_neg dot, spelled]
      rfl

theorem intercalate_isPrefixOf {kept body : List String} (begins : kept <+: body) :
    ("/".intercalate kept).toList <+: ("/".intercalate body).toList := by
  obtain ⟨rest, rfl⟩ := begins
  rcases eq_or_ne kept [] with rfl | nonempty
  · exact List.nil_prefix
  · rcases eq_or_ne rest [] with rfl | more
    · rw [List.append_nil]
    · rw [String.intercalate_append_of_ne_nil nonempty more, String.append_assoc,
        String.toList_append]
      exact List.prefix_append _ _

/-- The first pieces of a path are spelled as the path begins. -/
theorem spelling_toPath_isPrefixOf (lead : Option Component) {kept body : List String}
    (begins : kept <+: body) :
    (Parts.toPath ⟨lead, kept⟩).spelling.toList <+: (Parts.toPath ⟨lead, body⟩).spelling.toList := by
  have inner := intercalate_isPrefixOf begins
  rcases lead with _ | _ | _ | _ | text
  · exact inner
  · have rooted (pieces : List String) : (Parts.toPath ⟨some .root, pieces⟩).spelling.toList =
        '/' :: ("/".intercalate pieces).toList := by
      simp [Parts.toPath]
    rw [rooted, rooted]
    exact List.cons_prefix_cons.mpr ⟨rfl, inner⟩
  · rw [toPath_current, toPath_current]
    exact intercalate_isPrefixOf (List.cons_prefix_cons.mpr ⟨rfl, begins⟩)
  · exact inner
  · exact inner

/-- What is left of pieces without fillers at the end does not end in one. -/
theorem trimEnd_cases (pieces : List String) :
    trimEnd pieces = [] ∨
      ∃ before last, trimEnd pieces = before ++ [last] ∧ isFiller last = false := by
  have solid := List.head?_dropWhile_not isFiller pieces.reverse
  rw [trimEnd]
  cases left : pieces.reverse.dropWhile isFiller with
  | nil => exact .inl rfl
  | cons last more =>
    rw [left] at solid
    exact .inr ⟨more.reverse, last, List.reverse_cons, solid⟩

/-- Nothing is above a path that has at most the root for a component. The path above any other one
is spelled as the other one begins, and has one component less, which is not the root. -/
theorem parent?_cases (path : Path) :
    (path.parent? = none ∧ ∀ component ∈ path.components, component = .root) ∨
      ∃ above last, path.parent? = some above ∧ last ≠ .root ∧
        path.components = above.components ++ [last] ∧
        above.spelling.toList <+: path.spelling.toList := by
  have own : path.components = path.parts.lead.toList ++ path.parts.body.filterMap component? := rfl
  rw [← filterMap_trimEnd] at own
  rw [parent?]
  rcases trimEnd_cases path.parts.body with none | ⟨before, last, some, solid⟩
  · rw [none] at own ⊢
    dsimp only
    split_ifs with current
    · rw [current] at own
      exact .inr ⟨⟨""⟩, .current, rfl, by simp, own, List.nil_prefix⟩
    · refine .inl ⟨rfl, ?_⟩
      rcases path.parts_cases with parts | parts | ⟨parts, -, -⟩
      · simp [own, parts]
      · exact absurd (by rw [parts]) current
      · simp [own, parts]
  · have begins : before <+: path.parts.body := by
      refine .trans ?_ (trimEnd_isPrefixOf _)
      rw [some]
      exact List.prefix_append _ _
    obtain ⟨component, read⟩ := exists_component? solid
    refine .inr ⟨Parts.toPath { path.parts with body := trimEnd before }, component, ?_,
      (component?_eq_some read).2, ?_, ?_⟩
    · rw [some]
      split
      next none => simp at none
      next => rw [List.dropLast_concat]
    · rw [own, some, components_beginning begins, List.filterMap_append,
        List.filterMap_cons_some read, List.append_assoc]
      rfl
    · have spelled := spelling_toPath_isPrefixOf path.parts.lead
        ((trimEnd_isPrefixOf before).trans begins)
      rwa [toPath_parts path] at spelled

theorem parent?_eq_some {path above : Path} (up : path.parent? = some above) :
    above.spelling.toList <+: path.spelling.toList ∧
      ∃ last, last ≠ .root ∧ path.components = above.components ++ [last] := by
  obtain ⟨none, -⟩ | ⟨other, last, some, behind, whole, begins⟩ := path.parent?_cases
  · rw [none] at up
    cases up
  · obtain rfl := Option.some.inj (some.symm.trans up)
    exact ⟨begins, last, behind, whole⟩

/-- How many directories there are above a path. -/
def depth (path : Path) : Nat := path.components.countP (· ≠ .root)

theorem parent?_eq_none_iff (path : Path) : path.parent? = none ↔ path.depth = 0 := by
  rw [depth, List.countP_eq_zero]
  obtain ⟨none, only⟩ | ⟨above, last, some, behind, whole, -⟩ := path.parent?_cases
  · simpa [none] using only
  · simp [some, whole, behind]

theorem depth_of_parent? {path above : Path} (up : path.parent? = some above) :
    path.depth = above.depth + 1 := by
  obtain ⟨-, last, behind, whole⟩ := parent?_eq_some up
  rw [depth, depth, whole, List.countP_append]
  simp [behind]

/-- A path has at least as many characters as directories above it. -/
theorem depth_le_length (path : Path) : path.depth ≤ path.spelling.length := by
  induction levels : path.depth generalizing path with
  | zero => exact Nat.zero_le _
  | succ levels ih =>
    cases up : path.parent? with
    | none =>
      rw [(parent?_eq_none_iff path).mp up] at levels
      cases levels
    | some above =>
      have least := ih above (Nat.succ.inj ((depth_of_parent? up).symm.trans levels))
      obtain ⟨begins, last, -, whole⟩ := parent?_eq_some up
      have shorter : above.spelling.length < path.spelling.length := by
        rw [← String.length_toList, ← String.length_toList]
        refine begins.length_le.lt_of_ne fun same => ?_
        have equal : above = path :=
          congrArg Path.mk (String.toList_inj.mp (begins.eq_of_length same))
        simpa [equal] using congrArg List.length whole
      omega

/-- The directory a number of levels above a path. -/
def up? : Nat → Path → Option Path
  | 0, path => some path
  | levels + 1, path => path.parent?.bind (up? levels)

theorem up?_succ {path above : Path} (up : path.parent? = some above) (levels : Nat) :
    path.up? (levels + 1) = above.up? levels := by
  rw [up?, up, Option.bind_some]

/-- There are directories above a path up to its depth. -/
theorem exists_up?_iff (path : Path) (levels : Nat) :
    (∃ above, path.up? levels = some above) ↔ levels ≤ path.depth := by
  induction levels generalizing path with
  | zero => simp [up?]
  | succ levels ih =>
    cases up : path.parent? with
    | none => simp [up?, up, (parent?_eq_none_iff path).mp up]
    | some above => rw [up?_succ up, ih, depth_of_parent? up, Nat.add_le_add_iff_right]

/-- A directory above a path is spelled as the path begins and has its first components. -/
theorem up?_eq_some {path above : Path} {levels : Nat} (up : path.up? levels = some above) :
    above.spelling.toList <+: path.spelling.toList ∧
      above.components = path.components.take (path.components.length - levels) ∧
      above.isAbsolute = path.isAbsolute := by
  induction levels generalizing path with
  | zero =>
    obtain rfl := Option.some.inj up
    exact ⟨List.prefix_refl _, by simp, rfl⟩
  | succ levels ih =>
    cases next : path.parent? with
    | none => simp [up?, next] at up
    | some middle =>
      rw [up?_succ next] at up
      obtain ⟨spelled, components, absolute⟩ := ih up
      obtain ⟨begins, last, behind, whole⟩ := parent?_eq_some next
      refine ⟨spelled.trans begins, ?_, absolute.trans ?_⟩
      · rw [components, whole, List.length_append, List.length_singleton, Nat.add_sub_add_right,
          List.take_append_of_le_length (Nat.sub_le _ _)]
      · rw [Bool.eq_iff_iff, isAbsolute_iff_components, isAbsolute_iff_components, whole]
        cases middle.components <;> simp [behind]

end Path

namespace Settings

/-! ## The search -/

/-- How a search that starts in a directory ends. -/
inductive Search (disk : Disk) : Path → Option Path → Prop where
  /-- There is a settings file in the directory. -/
  | found {directory : Path} (holds : disk.has (directory.child fileName) = true) :
      Search disk directory (some (directory.child fileName))
  /-- The directory holds a repository. -/
  | stopped {directory : Path} (misses : disk.has (directory.child fileName) = false)
      (repository : disk.has (directory.child ".git") = true) : Search disk directory none
  /-- There is no directory above. -/
  | ended {directory : Path} (misses : disk.has (directory.child fileName) = false)
      (clear : disk.has (directory.child ".git") = false) (top : directory.parent? = none) :
      Search disk directory none
  /-- The search goes on in the directory above. -/
  | up {directory above : Path} {answer : Option Path}
      (misses : disk.has (directory.child fileName) = false)
      (clear : disk.has (directory.child ".git") = false) (next : directory.parent? = some above)
      (rest : Search disk above answer) : Search disk directory answer

variable {disk : Disk} {start above : Path}

/-- With more steps than there are directories above, a search comes to its end. -/
theorem search_findFrom? {steps : Nat} (enough : start.depth < steps) :
    Search disk start (findFrom? disk steps start) := by
  induction steps generalizing start with
  | zero => cases enough
  | succ steps ih =>
    rw [findFrom?]
    split_ifs with holds repository
    · exact .found holds
    · exact .stopped (by simpa using holds) repository
    · rw [Bool.not_eq_true] at holds repository
      cases next : start.parent? with
      | none => exact .ended holds repository next
      | some above =>
        have fewer : above.depth < steps := by
          rw [Path.depth_of_parent? next] at enough
          omega
        exact .up holds repository next (ih fewer)

theorem search_find? (disk : Disk) (start : Path) : Search disk start (find? disk start) :=
  search_findFrom? (Nat.lt_succ_of_le start.depth_le_length)

theorem Search.unique {answer other : Option Path} (search : Search disk start answer)
    (also : Search disk start other) : answer = other := by
  induction search with
  | found holds => cases also <;> simp_all
  | stopped misses repository => cases also <;> simp_all
  | ended misses clear top => cases also <;> simp_all
  | up misses clear next rest ih =>
    cases also with
    | up _ _ alsoNext alsoRest =>
      obtain rfl := Option.some.inj (next.symm.trans alsoNext)
      exact ih alsoRest
    | _ => simp_all

/-! ## The nearest file -/

/-- No directory below a level has an entry of a name. -/
def NoneBelow (disk : Disk) (start : Path) (levels : Nat) (name : String) : Prop :=
  ∀ lower < levels, ∀ below ∈ start.up? lower, disk.has (below.child name) = false

instance (disk : Disk) (start : Path) (levels : Nat) (name : String) :
    Decidable (NoneBelow disk start levels name) :=
  inferInstanceAs (Decidable
    (∀ lower < levels, ∀ below ∈ start.up? lower, disk.has (below.child name) = false))

theorem noneBelow_zero {name : String} : NoneBelow disk start 0 name :=
  fun _ negative => absurd negative (Nat.not_lt_zero _)

theorem noneBelow_succ_iff (next : start.parent? = some above) (levels : Nat) (name : String) :
    NoneBelow disk start (levels + 1) name ↔
      disk.has (start.child name) = false ∧ NoneBelow disk above levels name := by
  constructor
  · intro none
    refine ⟨none 0 (Nat.succ_pos _) start rfl, fun lower less below up => ?_⟩
    exact none (lower + 1) (Nat.succ_lt_succ less) below ((Path.up?_succ next lower).trans up)
  · rintro ⟨first, later⟩ lower less below up
    cases lower with
    | zero =>
      obtain rfl := Option.some.inj up
      exact first
    | succ lower =>
      rw [Path.up?_succ next] at up
      exact later lower (Nat.lt_of_succ_lt_succ less) below up

/-- A settings file applies from a directory above if there is no repository strictly below that
directory. -/
structure Applies (disk : Disk) (start : Path) (levels : Nat) (above : Path) : Prop where
  up : start.up? levels = some above
  holds : disk.has (above.child fileName) = true
  clear : NoneBelow disk start levels ".git"

theorem not_applies_zero (misses : disk.has (start.child fileName) = false) :
    ¬ Applies disk start 0 above := by
  rintro ⟨up, holds, -⟩
  obtain rfl := Option.some.inj up
  rw [misses] at holds
  cases holds

theorem applies_succ_iff {middle : Path} (next : start.parent? = some middle) (levels : Nat) :
    Applies disk start (levels + 1) above ↔
      disk.has (start.child ".git") = false ∧ Applies disk middle levels above := by
  constructor
  · rintro ⟨up, holds, clear⟩
    rw [noneBelow_succ_iff next] at clear
    rw [Path.up?_succ next] at up
    exact ⟨clear.1, up, holds, clear.2⟩
  · rintro ⟨first, up, holds, clear⟩
    exact ⟨(Path.up?_succ next levels).trans up, holds, (noneBelow_succ_iff next ..).mpr ⟨first, clear⟩⟩

/-- A search that finds a file finds the nearest one that applies. -/
theorem Search.nearest {file : Path} {answer : Option Path} (search : Search disk start answer)
    (found : answer = some file) :
    ∃ levels above, Applies disk start levels above ∧ NoneBelow disk start levels fileName ∧
      file = above.child fileName := by
  induction search with
  | found holds =>
    exact ⟨0, _, ⟨rfl, holds, noneBelow_zero⟩, noneBelow_zero, (Option.some.inj found).symm⟩
  | stopped => cases found
  | ended => cases found
  | up misses clear next _ ih =>
    obtain ⟨levels, above, applies, none, same⟩ := ih found
    exact ⟨levels + 1, above, (applies_succ_iff next levels).mpr ⟨clear, applies⟩,
      (noneBelow_succ_iff next ..).mpr ⟨misses, none⟩, same⟩

/-- A search that finds no file has none to find. -/
theorem Search.not_applies {answer : Option Path} (search : Search disk start answer)
    (unset : answer = none) (levels : Nat) (above : Path) : ¬ Applies disk start levels above := by
  induction search generalizing levels with
  | found => cases unset
  | stopped misses repository =>
    cases levels with
    | zero => exact not_applies_zero misses
    | succ levels =>
      rintro ⟨-, -, clear⟩
      have first := clear 0 (Nat.succ_pos _) _ rfl
      rw [repository] at first
      cases first
  | ended misses _ top =>
    cases levels with
    | zero => exact not_applies_zero misses
    | succ levels =>
      rintro ⟨up, -, -⟩
      rw [Path.up?, top] at up
      cases up
  | up misses clear next _ ih =>
    cases levels with
    | zero => exact not_applies_zero misses
    | succ levels =>
      rw [applies_succ_iff next]
      exact fun both => ih unset levels both.2

/-- The nearest file that applies is at one level only. -/
theorem level_unique {levels others : Nat} {other : Path} (applies : Applies disk start levels above)
    (none : NoneBelow disk start levels fileName) (also : Applies disk start others other)
    (alsoNone : NoneBelow disk start others fileName) : above = other := by
  rcases lt_trichotomy levels others with below | rfl | beyond
  · simpa [applies.holds] using alsoNone levels below above applies.up
  · exact Option.some.inj (applies.up.symm.trans also.up)
  · simpa [also.holds] using none others beyond other also.up

theorem find?_eq_none_iff (disk : Disk) (start : Path) :
    find? disk start = none ↔ ∀ levels above, ¬ Applies disk start levels above := by
  refine ⟨(search_find? disk start).not_applies, fun none => ?_⟩
  cases answer : find? disk start with
  | none => rfl
  | some file =>
    obtain ⟨levels, above, applies, -, -⟩ := (search_find? disk start).nearest answer
    exact absurd applies (none levels above)

theorem find?_eq_some_iff (disk : Disk) (start file : Path) :
    find? disk start = some file ↔ ∃ levels above, Applies disk start levels above ∧
      NoneBelow disk start levels fileName ∧ file = above.child fileName := by
  refine ⟨(search_find? disk start).nearest, ?_⟩
  rintro ⟨levels, above, applies, none, rfl⟩
  cases answer : find? disk start with
  | none => exact absurd applies ((find?_eq_none_iff disk start).mp answer levels above)
  | some file =>
    obtain ⟨others, other, also, alsoNone, rfl⟩ := (search_find? disk start).nearest answer
    rw [level_unique applies none also alsoNone]

/-- A search comes to an end, and its answer is the one of the bounded search. The directories that
it may look at are those that the path leads through, with fewer and fewer of its components. It
answers with the file of the nearest directory that has one, if no repository lies strictly below
that directory, and with nothing if there is no such directory. So in the first directory with a
settings file or a repository a file is found beside the repository, but none above it. -/
theorem nearest_settings_found (disk : Disk) (start : Path) :
    (∀ answer, Search disk start answer ↔ find? disk start = answer) ∧
    (∀ levels, (∃ above, start.up? levels = some above) ↔ levels ≤ start.depth) ∧
    (∀ levels above, start.up? levels = some above →
      above.spelling.toList <+: start.spelling.toList ∧
      above.components = start.components.take (start.components.length - levels) ∧
      above.isAbsolute = start.isAbsolute) ∧
    (∀ file, find? disk start = some file ↔ ∃ levels above, Applies disk start levels above ∧
      NoneBelow disk start levels fileName ∧ file = above.child fileName) ∧
    (find? disk start = none ↔ ∀ levels above, ¬ Applies disk start levels above) ∧
    ∀ levels above, start.up? levels = some above → NoneBelow disk start levels fileName →
      NoneBelow disk start levels ".git" → disk.has (above.child ".git") = true →
      find? disk start =
        if disk.has (above.child fileName) then some (above.child fileName) else none := by
  have search := search_find? disk start
  refine ⟨fun answer => ⟨search.unique, fun same => same ▸ search⟩, start.exists_up?_iff,
    fun levels above => Path.up?_eq_some, find?_eq_some_iff disk start, find?_eq_none_iff disk start,
    fun levels above up none clear repository => ?_⟩
  split_ifs with holds
  · exact (find?_eq_some_iff ..).mpr ⟨levels, above, ⟨up, holds, clear⟩, none, rfl⟩
  · rw [find?_eq_none_iff]
    rintro others other ⟨alsoUp, alsoHolds, alsoClear⟩
    rcases lt_trichotomy others levels with below | rfl | beyond
    · simpa [alsoHolds] using none others below other alsoUp
    · obtain rfl := Option.some.inj (up.symm.trans alsoUp)
      exact holds alsoHolds
    · simpa [repository] using alsoClear levels beyond above up

/-- Two repositories below a directory with settings, one of which has settings of its own. -/
def repositories : Disk where
  entries :=
    [([fileName], .file (.text "{}") .full), (["with"], .directory .full),
     (["with", ".git"], .directory .full), (["with", fileName], .file (.text "{}") .full),
     (["with", "app"], .directory .full), (["without"], .directory .full),
     (["without", ".git"], .directory .full)]

theorem settings_beside_repository :
    (⟨"/with//app/"⟩ : Path).up? 1 = some ⟨"/with"⟩ ∧
    NoneBelow repositories ⟨"/with//app/"⟩ 1 fileName ∧
    NoneBelow repositories ⟨"/with//app/"⟩ 1 ".git" ∧
    repositories.has (Path.child ⟨"/with"⟩ ".git") = true ∧
    find? repositories ⟨"/with//app/"⟩ = some (Path.child ⟨"/with"⟩ fileName) ∧
    repositories.has (Path.child ⟨"/"⟩ fileName) = true ∧
    find? repositories ⟨"/without"⟩ = none := by
  have up : (⟨"/with//app/"⟩ : Path).up? 1 = some ⟨"/with"⟩ := by decide +kernel
  have noFile : NoneBelow repositories ⟨"/with//app/"⟩ 1 fileName := by decide +kernel
  have clear : NoneBelow repositories ⟨"/with//app/"⟩ 1 ".git" := by decide +kernel
  have repository : repositories.has (Path.child ⟨"/with"⟩ ".git") = true := by decide +kernel
  have other : repositories.has (Path.child ⟨"/without"⟩ ".git") = true := by decide +kernel
  have beside := (nearest_settings_found repositories ⟨"/with//app/"⟩).2.2.2.2.2 1 _ up noFile clear
    repository
  have above := (nearest_settings_found repositories ⟨"/without"⟩).2.2.2.2.2 0 _ rfl noneBelow_zero
    noneBelow_zero other
  refine ⟨up, noFile, clear, repository, beside.trans (if_pos ?_), ?_, above.trans (if_neg ?_)⟩
  · decide +kernel
  · decide +kernel
  · decide +kernel

end Settings

end TemplateLint
