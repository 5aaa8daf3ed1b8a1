import Mathlib
import TemplateLint.Proofs.Spelling

/-! # What is left of a path

A part of a path is spelled by some of its pieces, without the fillers at an end where pieces have
gone, so that its components are those of the pieces that are left. A beginning of a path keeps the
component that the path starts with. What is left behind another path starts with a component of its
own and is relative, and it leads from the other path back to the whole one.
-/

namespace TemplateLint.Path

/-! ## Pieces that are left -/

theorem filterMap_dropWhile_isFiller (pieces : List String) :
    (pieces.dropWhile isFiller).filterMap component? = pieces.filterMap component? := by
  induction pieces with
  | nil => rfl
  | cons piece rest ih =>
    cases filler : isFiller piece with
    | false => rw [List.dropWhile_cons_of_neg (by simp [filler])]
    | true =>
      rw [List.dropWhile_cons_of_pos filler, ih,
        List.filterMap_cons_none (Option.isNone_iff_eq_none.mp filler)]

theorem filterMap_trimEnd (pieces : List String) :
    (trimEnd pieces).filterMap component? = pieces.filterMap component? := by
  rw [trimEnd, List.filterMap_reverse, filterMap_dropWhile_isFiller, List.filterMap_reverse,
    List.reverse_reverse]

theorem filterMap_dropComponents (count : Nat) (pieces : List String) :
    (dropComponents count pieces).filterMap component? =
      (pieces.filterMap component?).drop count := by
  fun_induction dropComponents count pieces with
  | case1 => rfl
  | case2 => rfl
  | case3 count piece rest filler ih =>
    rw [ih, List.filterMap_cons_none (Option.isNone_iff_eq_none.mp filler)]
  | case4 count piece rest solid ih =>
    obtain ⟨component, read⟩ := exists_component? (by simpa using solid)
    rw [ih, List.filterMap_cons_some read, List.drop_succ_cons]

theorem trimEnd_isPrefixOf (pieces : List String) : trimEnd pieces <+: pieces := by
  rw [trimEnd, ← List.reverse_suffix, List.reverse_reverse]
  exact List.dropWhile_suffix _

theorem head?_of_trimEnd {pieces : List String} {first : String}
    (head : first ∈ (trimEnd pieces).head?) : pieces.head? = some first := by
  obtain ⟨others, kept⟩ := List.head?_eq_some_iff.mp head
  obtain ⟨dropped, whole⟩ := trimEnd_isPrefixOf pieces
  rw [← whole, kept]
  rfl

theorem dropComponents_suffix (count : Nat) (pieces : List String) :
    dropComponents count pieces <:+ pieces := by
  fun_induction dropComponents count pieces with
  | case1 => exact List.suffix_refl _
  | case2 => exact List.suffix_refl _
  | case3 _ piece _ _ ih => exact ih.trans (List.suffix_cons piece _)
  | case4 _ piece _ _ ih => exact ih.trans (List.suffix_cons piece _)

theorem filterMap_pieces_intercalate {body : List String}
    (slashless : ∀ piece ∈ body, '/' ∉ piece.toList) :
    (⟨"/".intercalate body⟩ : Path).pieces.filterMap component? = body.filterMap component? := by
  rcases eq_or_ne body [] with rfl | nonempty
  · rfl
  · rw [pieces_intercalate nonempty slashless]

/-- Pieces that start with a component spell a relative path with their components. -/
theorem components_intercalate {body : List String}
    (slashless : ∀ piece ∈ body, '/' ∉ piece.toList)
    (solid : ∀ first ∈ body.head?, isFiller first = false) :
    (⟨"/".intercalate body⟩ : Path).isAbsolute = false ∧
      (⟨"/".intercalate body⟩ : Path).components = body.filterMap component? := by
  cases body with
  | nil => decide
  | cons first rest =>
    have cuts := pieces_intercalate (List.cons_ne_nil first rest) slashless
    obtain ⟨nonempty, noDot⟩ := (isFiller_eq_false_iff first).mp (solid first rfl)
    have relative : (⟨"/".intercalate (first :: rest)⟩ : Path).isAbsolute = false := by
      rw [← Bool.not_eq_true]
      exact fun absolute => nonempty (pieces_of_isAbsolute absolute cuts)
    refine ⟨relative, ?_⟩
    rw [components_eq, cuts, relative, componentsOf]
    cases component : component? first <;> simp [noDot, component]

/-- A text with a slash in it has the pieces of both sides. -/
theorem pieces_append_slash (before behind : String) :
    (⟨before ++ "/" ++ behind⟩ : Path).pieces =
      (⟨before⟩ : Path).pieces ++ (⟨behind⟩ : Path).pieces := by
  have whole : (before ++ "/" ++ behind).toList = before.toList ++ '/' :: behind.toList := by
    simp
  rw [pieces, whole, cut_append_slash, List.map_append, pieces, pieces]

theorem components_toPath_root {body : List String}
    (slashless : ∀ piece ∈ body, '/' ∉ piece.toList) :
    (Parts.toPath ⟨some .root, body⟩).components = .root :: body.filterMap component? := by
  have same : Parts.toPath ⟨some .root, body⟩ = ⟨"" ++ "/" ++ "/".intercalate body⟩ := by
    rw [String.empty_append]
    rfl
  have begins : (⟨"" ++ "/" ++ "/".intercalate body⟩ : Path).isAbsolute = true := by
    simp [isAbsolute]
  have first : (⟨""⟩ : Path).pieces = [""] := by decide
  rw [same, components_eq, begins, pieces_append_slash, first, List.singleton_append, componentsOf,
    if_pos rfl, filterMap_pieces_intercalate slashless]
  rfl

theorem toPath_current (body : List String) :
    Parts.toPath ⟨some .current, body⟩ = ⟨"/".intercalate ("." :: body)⟩ := by
  cases body with
  | nil => rfl
  | cons first rest =>
    rw [String.intercalate_cons_of_ne_nil (List.cons_ne_nil first rest)]
    rfl

theorem components_toPath_current {body : List String}
    (slashless : ∀ piece ∈ body, '/' ∉ piece.toList) :
    (Parts.toPath ⟨some .current, body⟩).components = .current :: body.filterMap component? := by
  have cuts := pieces_intercalate (List.cons_ne_nil "." body)
    (List.forall_mem_cons.mpr ⟨by decide, slashless⟩)
  have begins : (⟨"/".intercalate ("." :: body)⟩ : Path).isAbsolute = false := by
    rw [← Bool.not_eq_true]
    exact fun absolute => absurd (pieces_of_isAbsolute absolute cuts) (by decide)
  rw [toPath_current, components_eq, cuts, begins, componentsOf, if_neg Bool.false_ne_true,
    if_pos rfl]
  rfl

theorem parts_cases (path : Path) :
    path.parts = ⟨some .root, path.pieces.tail⟩ ∨ path.parts = ⟨some .current, path.pieces.tail⟩ ∨
      path.parts = ⟨none, path.pieces⟩ ∧ path.isAbsolute = false ∧
        path.pieces.head? ≠ some "." := by
  obtain ⟨first, rest, cuts⟩ := path.exists_pieces
  rw [parts, cuts]
  dsimp only
  split_ifs with absolute dot
  · exact .inl rfl
  · exact .inr (.inl rfl)
  · exact .inr (.inr ⟨rfl, by simpa using absolute, by simpa using dot⟩)

theorem parts_body_subset (path : Path) : path.parts.body ⊆ path.pieces := by
  rcases path.parts_cases with parts | parts | ⟨parts, -, -⟩ <;> rw [parts]
  · exact List.tail_subset _
  · exact List.tail_subset _
  · exact List.Subset.refl _

/-! ## Beginnings -/

/-- The first pieces of a relative path that does not start with `.` start with a component, once
they are trimmed. -/
theorem solid_of_trimEnd {path : Path} (relative : path.isAbsolute = false)
    (noDot : path.pieces.head? ≠ some ".") {kept : List String} (begins : kept <+: path.pieces) :
    ∀ first ∈ (trimEnd kept).head?, isFiller first = false := by
  intro first head
  obtain ⟨more, keeps⟩ := List.head?_eq_some_iff.mp (head?_of_trimEnd head)
  obtain ⟨behind, whole⟩ := begins
  rw [keeps, List.cons_append] at whole
  rw [isFiller_eq_false_iff]
  refine ⟨?_, ?_⟩
  · rintro rfl
    -- An empty first piece that makes no path absolute is the only one, and trimmed away.
    have single : more ++ behind = [] := by
      by_contra others
      have absolute := (isAbsolute_iff_pieces path).mpr ⟨_, others, whole.symm⟩
      rw [relative] at absolute
      cases absolute
    rw [keeps, (List.append_eq_nil_iff.mp single).1] at head
    cases head
  · rintro rfl
    exact noDot (by rw [← whole]; rfl)

/-- The first pieces of a path spell a path with their components, behind the one that the path
starts with. -/
theorem components_beginning {path : Path} {kept : List String} (begins : kept <+: path.parts.body) :
    (Parts.toPath { path.parts with body := trimEnd kept }).components =
      path.parts.lead.toList ++ kept.filterMap component? := by
  have slashless : ∀ piece ∈ trimEnd kept, '/' ∉ piece.toList := fun piece among =>
    not_mem_of_mem_pieces
      (path.parts_body_subset (begins.subset ((trimEnd_isPrefixOf kept).subset among)))
  rcases path.parts_cases with parts | parts | ⟨parts, relative, noDot⟩
  · rw [parts, components_toPath_root slashless, filterMap_trimEnd]
    rfl
  · rw [parts, components_toPath_current slashless, filterMap_trimEnd]
    rfl
  · have same : Parts.toPath ⟨none, trimEnd kept⟩ = ⟨"/".intercalate (trimEnd kept)⟩ := rfl
    rw [parts] at begins
    have solid := solid_of_trimEnd relative noDot begins
    rw [parts, same, (components_intercalate slashless solid).2, filterMap_trimEnd]
    rfl

/-! ## Endings -/

theorem drop_components (path : Path) (count : Nat) :
    path.components.drop (count + 1) =
      (path.parts.body.filterMap component?).drop
        (if path.parts.lead.isSome then count else count + 1) := by
  rw [components]
  cases path.parts.lead <;> rfl

/-- Pieces without the fillers at both ends start with a component. -/
theorem solid_of_dropWhile (pieces : List String) :
    ∀ first ∈ (trimEnd (pieces.dropWhile isFiller)).head?, isFiller first = false := by
  intro first head
  have solid := List.head?_dropWhile_not isFiller pieces
  rwa [head?_of_trimEnd head] at solid

theorem isSome_stripPrefix? (path base : Path) :
    (path.stripPrefix? base).isSome = path.startsWith base := by
  rw [stripPrefix?]
  split_ifs with starts
  · rw [starts]
    split <;> rfl
  · simp [starts]

/-- What is left of a path behind a base is relative, and its components are the ones that the path
has more than the base. -/
theorem components_of_stripPrefix? {base path relative : Path} (nonempty : base.components ≠ [])
    (stripped : path.stripPrefix? base = some relative) :
    relative.isAbsolute = false ∧ relative.pieces.filterMap component? = relative.components ∧
      path.components = base.components ++ relative.components := by
  rw [stripPrefix?] at stripped
  split_ifs at stripped with starts
  split at stripped
  next none => exact absurd (List.eq_nil_of_length_eq_zero none) nonempty
  next count some =>
    set behind := dropComponents (if path.parts.lead.isSome then count else count + 1)
      path.parts.body with dropped
    have kept : ∀ piece ∈ trimEnd (behind.dropWhile isFiller), '/' ∉ piece.toList :=
      fun piece among => not_mem_of_mem_pieces <| path.parts_body_subset <|
        (dropComponents_suffix ..).subset <| (List.dropWhile_suffix _).subset <|
          (trimEnd_isPrefixOf _).subset among
    have same : relative = ⟨"/".intercalate (trimEnd (behind.dropWhile isFiller))⟩ :=
      (Option.some.inj stripped).symm
    obtain ⟨isRelative, components⟩ := components_intercalate kept (solid_of_dropWhile behind)
    rw [← same] at isRelative components
    refine ⟨isRelative, ?_, ?_⟩
    · rw [components, same, filterMap_pieces_intercalate kept]
    · have whole := List.prefix_iff_eq_append.mp (List.isPrefixOf_iff_prefix.mp starts)
      rw [some, drop_components, ← filterMap_dropComponents] at whole
      rw [components, filterMap_trimEnd, filterMap_dropWhile_isFiller, whole]

/-- What is left of a path behind a base leads back to the path. -/
theorem components_join_of_stripPrefix? {root path relative : Path}
    (stripped : path.stripPrefix? root = some relative) :
    (root.join relative).components = path.components := by
  rcases eq_or_ne root.components [] with none | nonempty
  · have trimmed : relative.components = path.components := by
      rw [stripPrefix?] at stripped
      split_ifs at stripped
      rw [none] at stripped
      obtain rfl := Option.some.inj stripped
      exact components_beginning (List.prefix_refl _)
    rw [← trimmed]
    cases absolute : relative.isAbsolute with
    | true => rw [join, if_pos absolute]
    | false =>
      have same : root.join relative = relative :=
        pieces_injective (by rw [pieces_join root absolute, front_eq_nil none, List.nil_append])
      rw [same]
  · obtain ⟨isRelative, pieces, whole⟩ := components_of_stripPrefix? nonempty stripped
    rw [components_join nonempty isRelative, pieces, whole]

end TemplateLint.Path
