import Mathlib
import TemplateLint.Proofs.Resolution

/-! # How a path is spelled

A path is its pieces between slashes, and its components are read off the pieces that come before a
slash at the end, its front. A path below another one has the two fronts one behind the other. A
plain spelling has no piece behind the first that is not a component, so that the components of a
path give its front back, and so do those of a path that goes on plainly from a base, however the
base itself is spelled.
-/

namespace TemplateLint.Path

/-! ## Pieces -/

theorem intercalate_cut (text : List Char) : List.intercalate ['/'] (cut text) = text := by
  induction text with
  | nil => rfl
  | cons c rest ih =>
    obtain ⟨piece, others, first⟩ := List.exists_cons_of_ne_nil (cut_ne_nil rest)
    rw [cut]
    split_ifs with slash
    · rw [first, List.intercalate_cons_cons, ← first, ih, slash]
      rfl
    · rw [first] at ih ⊢
      cases others with
      | nil => simpa using ih
      | cons next more =>
        dsimp only
        rw [List.intercalate_cons_cons] at ih ⊢
        rw [← ih]
        rfl

theorem not_mem_of_mem_cut {text piece : List Char} (among : piece ∈ cut text) : '/' ∉ piece := by
  induction text generalizing piece with
  | nil => simp_all [cut]
  | cons c rest ih =>
    obtain ⟨first, others, cuts⟩ := List.exists_cons_of_ne_nil (cut_ne_nil rest)
    rw [cut] at among
    split_ifs at among with slash
    · rcases List.mem_cons.mp among with rfl | later
      · exact List.not_mem_nil
      · exact ih later
    · rw [cuts] at ih among
      rcases List.mem_cons.mp among with rfl | later
      · simpa [Ne.symm slash] using ih (List.mem_cons_self ..)
      · exact ih (List.mem_cons_of_mem _ later)

theorem not_mem_of_mem_pieces {path : Path} {piece : String} (among : piece ∈ path.pieces) :
    '/' ∉ piece.toList := by
  obtain ⟨chars, inside, rfl⟩ := List.mem_map.mp among
  simpa using not_mem_of_mem_cut inside

/-- A path that is spelled by pieces has these. -/
theorem pieces_intercalate {body : List String} (nonempty : body ≠ [])
    (slashless : ∀ piece ∈ body, '/' ∉ piece.toList) :
    (⟨"/".intercalate body⟩ : Path).pieces = body := by
  induction body with
  | nil => exact absurd rfl nonempty
  | cons piece rest ih =>
    obtain ⟨first, later⟩ := List.forall_mem_cons.mp slashless
    rcases eq_or_ne rest [] with rfl | more
    · simp [pieces, cut_eq_singleton first]
    · have whole : ("/".intercalate (piece :: rest)).toList =
          piece.toList ++ '/' :: ("/".intercalate rest).toList := by
        rw [String.intercalate_cons_of_ne_nil more]
        simp
      have behind := ih more later
      rw [pieces] at behind
      rw [pieces, whole, cut_append_slash, cut_eq_singleton first, List.map_append, behind]
      simp

theorem spelling_eq (path : Path) : path.spelling = "/".intercalate path.pieces := by
  refine String.toList_inj.mp ?_
  simp [pieces, Function.comp_def, intercalate_cut]

theorem pieces_injective : Function.Injective pieces := by
  intro path other same
  refine congrArg Path.mk ?_
  rw [spelling_eq, spelling_eq, same]

/-- A text ends in a part without a mark, which is all of it or comes behind its last mark. -/
theorem exists_last_part (mark : Char) (text : List Char) :
    ∃ last, mark ∉ last ∧ (text = last ∨ ∃ before, text = before ++ mark :: last) := by
  induction text with
  | nil => exact ⟨[], List.not_mem_nil, .inl rfl⟩
  | cons c rest ih =>
    obtain ⟨last, without, rfl | ⟨before, rfl⟩⟩ := ih
    · by_cases same : c = mark
      · exact ⟨rest, without, .inr ⟨[], by rw [same]; rfl⟩⟩
      · exact ⟨c :: rest, by simp [Ne.symm same, without], .inl rfl⟩
    · exact ⟨last, without, .inr ⟨c :: before, rfl⟩⟩

/-- The last piece is empty if there is nothing behind the last slash. -/
theorem getLast?_pieces_eq_empty_iff (path : Path) : path.pieces.getLast? = some "" ↔
    path.spelling = "" ∨ path.spelling.toList.getLast? = some '/' := by
  rw [pieces, ← String.toList_eq_nil_iff]
  obtain ⟨last, slashless, whole | ⟨before, whole⟩⟩ := exists_last_part '/' path.spelling.toList
  · rw [whole, cut_eq_singleton slashless]
    have other : last.getLast? ≠ some '/' := fun same => slashless (List.mem_of_getLast? same)
    simp [other]
  · rw [whole, cut_append_slash, cut_eq_singleton slashless]
    cases last with
    | nil => simp
    | cons c rest =>
      have other : (c :: rest).getLast? ≠ some '/' := fun same =>
        slashless (List.mem_of_getLast? same)
      simp [List.getLast?_append, other]

/-! ## Fronts -/

/-- The pieces of a path without an empty one at the end. -/
def front (path : Path) : List String :=
  if path.pieces.getLast? = some "" then path.pieces.dropLast else path.pieces

theorem exists_pieces_eq (path : Path) :
    ∃ last, (last = [] ∨ last = [""]) ∧ path.pieces = path.front ++ last := by
  rw [front]
  split_ifs with ends
  · obtain ⟨before, whole⟩ := List.getLast?_eq_some_iff.mp ends
    exact ⟨[""], .inr rfl, by rw [whole, List.dropLast_concat]⟩
  · exact ⟨[], .inl rfl, (List.append_nil _).symm⟩

/-- A path with more pieces than the front of another one starts as the other one is spelled. -/
theorem exists_spelling_eq {base path : Path} {behind : List String} (more : behind ≠ [])
    (joined : path.front = base.front ++ behind) :
    ∃ rest, path.spelling = base.spelling ++ rest := by
  obtain ⟨last, kind, own⟩ := base.exists_pieces_eq
  obtain ⟨further, -, whole⟩ := path.exists_pieces_eq
  rw [spelling_eq, spelling_eq base, whole, joined, own, List.append_assoc]
  rcases eq_or_ne base.front [] with empty | nonempty
  · refine ⟨"/".intercalate (behind ++ further), ?_⟩
    rcases kind with rfl | rfl <;> simp [empty]
  · rw [String.intercalate_append_of_ne_nil nonempty (by simp [more])]
    rcases kind with rfl | rfl
    · exact ⟨_, by rw [List.append_nil, String.append_assoc]⟩
    · refine ⟨"/".intercalate (behind ++ further), ?_⟩
      rw [String.intercalate_append_of_ne_nil nonempty (by simp)]
      simp

/-- A relative path below another one has the front of the other before its own pieces. -/
theorem pieces_join (base : Path) {path : Path} (relative : path.isAbsolute = false) :
    (base.join path).pieces = base.front ++ path.pieces := by
  by_cases ends : base.pieces.getLast? = some ""
  · rw [front, if_pos ends]
    rcases (getLast?_pieces_eq_empty_iff base).mp ends with empty | slash
    · have joined : base.join path = path := by simp [join, relative, empty]
      rw [joined, pieces, pieces, empty]
      rfl
    · obtain ⟨before, whole⟩ := List.getLast?_eq_some_iff.mp slash
      have joined : (base.join path).spelling.toList = before ++ '/' :: path.spelling.toList := by
        simp [join, relative, whole]
      rw [pieces, pieces, pieces, joined, whole, cut_append_slash, cut_append_slash]
      simp [cut]
  · rw [front, if_neg ends]
    rw [getLast?_pieces_eq_empty_iff, not_or] at ends
    have joined : (base.join path).spelling.toList =
        base.spelling.toList ++ '/' :: path.spelling.toList := by
      simp [join, relative, ends]
    rw [pieces, pieces, pieces, joined, cut_append_slash, List.map_append]

theorem front_join (base : Path) {path : Path} (relative : path.isAbsolute = false) :
    (base.join path).front = base.front ++ path.front := by
  have nonempty : path.pieces ≠ [] := by simp [pieces, cut_ne_nil]
  have own : path.front =
      if path.pieces.getLast? = some "" then path.pieces.dropLast else path.pieces := rfl
  rw [front, pieces_join base relative, List.getLast?_append_of_ne_nil _ nonempty,
    List.dropLast_append_of_ne_nil nonempty, own]
  split_ifs <;> rfl

/-- A name below a path is one more piece. -/
theorem pieces_child (base : Path) {name : String} (named : IsName name) :
    (base.child name).pieces = base.front ++ [name] := by
  have slashless := named.2.2.2
  have relative : (⟨name⟩ : Path).isAbsolute = false := by
    rw [isAbsolute, beq_eq_false_iff_ne]
    exact fun first => slashless (List.mem_of_head? first)
  rw [child, pieces_join base relative, pieces, cut_eq_singleton slashless, List.map_singleton,
    String.ofList_toList]

theorem front_child (base : Path) {name : String} (named : IsName name) :
    (base.child name).front = base.front ++ [name] := by
  rw [front, pieces_child base named, if_neg (by simpa using named.1)]

/-- A path is absolute if it has an empty piece before its first slash. -/
theorem isAbsolute_iff_pieces (path : Path) :
    path.isAbsolute = true ↔ ∃ rest, rest ≠ [] ∧ path.pieces = "" :: rest := by
  rw [isAbsolute, beq_iff_eq, pieces]
  constructor
  · intro slash
    obtain ⟨behind, whole⟩ := List.head?_eq_some_iff.mp slash
    refine ⟨(cut behind).map String.ofList, by simp [cut_ne_nil], ?_⟩
    rw [whole, cut, if_pos rfl]
    rfl
  · rintro ⟨rest, nonempty, cuts⟩
    cases whole : path.spelling.toList with
    | nil => simp [whole, cut, nonempty.symm] at cuts
    | cons c text =>
      obtain ⟨piece, others, first⟩ := List.exists_cons_of_ne_nil (cut_ne_nil text)
      rw [whole, cut, first] at cuts
      split_ifs at cuts with slash
      · rw [slash]
        rfl
      · simp at cuts

theorem isAbsolute_iff_front (path : Path) :
    path.isAbsolute = true ↔ path.front.head? = some "" := by
  obtain ⟨first, rest, cuts⟩ := path.exists_pieces
  rw [isAbsolute_iff_pieces, front, cuts]
  cases rest with
  | nil => by_cases empty : first = "" <;> simp [empty]
  | cons next more => split_ifs <;> simp

theorem components_eq_front (path : Path) :
    path.components = componentsOf path.isAbsolute path.front := by
  rw [components_eq, front]
  split_ifs with ends
  · obtain ⟨before, whole⟩ := List.getLast?_eq_some_iff.mp ends
    rw [whole, List.dropLast_concat]
    rcases eq_or_ne before [] with rfl | nonempty
    · have relative : path.isAbsolute = false := by
        rw [← Bool.not_eq_true, isAbsolute_iff_pieces, whole]
        simp
      rw [relative]
      rfl
    · rw [componentsOf_concat _ nonempty]
      simp [component?]
  · rfl

theorem componentsOf_append (absolute : Bool) {pieces : List String} (nonempty : pieces ≠ [])
    (behind : List String) : componentsOf absolute (pieces ++ behind) =
      componentsOf absolute pieces ++ behind.filterMap component? := by
  obtain ⟨first, rest, rfl⟩ := List.exists_cons_of_ne_nil nonempty
  rw [List.cons_append, componentsOf, componentsOf, List.filterMap_append, List.append_assoc]

/-- Without components there is no front. -/
theorem front_eq_nil {path : Path} (empty : path.components = []) : path.front = [] := by
  cases front : path.front with
  | nil => rfl
  | cons first rest =>
    have absolute := path.isAbsolute_iff_front
    rw [components_eq_front, front, componentsOf] at empty
    split_ifs at empty with begins dot
    · cases empty
    · cases empty
    · -- What is no component and not `.` is the empty piece of an absolute path.
      have none : component? first = none := by
        cases read : component? first <;> simp_all
      have filler : first = "" ∨ first = "." := by
        rw [component?] at none
        split_ifs at none with filler
        exact filler
      rw [filler.resolve_right dot] at front
      exact absurd (absolute.mpr (by rw [front]; rfl)) begins

theorem components_join {base path : Path} (nonempty : base.components ≠ [])
    (relative : path.isAbsolute = false) :
    (base.join path).components = base.components ++ path.pieces.filterMap component? := by
  have front : base.front ≠ [] := fun empty => nonempty (by rw [components_eq_front, empty]; rfl)
  have absolute : (base.join path).isAbsolute = base.isAbsolute := by
    rw [Bool.eq_iff_iff, isAbsolute_iff_front, isAbsolute_iff_front, front_join base relative,
      List.head?_append_of_ne_nil _ front]
  rw [components_eq, pieces_join base relative, componentsOf_append _ front, absolute,
    components_eq_front base]

/-- The components of a path are those of its pieces, behind a component that it may start with. -/
theorem components_eq_lead (path : Path) :
    path.components = path.pieces.filterMap component? ∨
      ∃ lead, (lead = .root ∨ lead = .current) ∧
        path.components = lead :: path.pieces.filterMap component? := by
  obtain ⟨first, rest, cuts⟩ := path.exists_pieces
  rw [components_eq, cuts, componentsOf]
  split_ifs with absolute dot
  · rw [pieces_of_isAbsolute absolute cuts]
    exact .inr ⟨.root, .inl rfl, rfl⟩
  · rw [dot]
    exact .inr ⟨.current, .inr rfl, rfl⟩
  · left
    cases component : component? first <;> simp [component]

/-- A path whose last piece is not empty is all front, so that its front gives it back. -/
theorem eq_of_front {path other : Path} (ends : path.pieces.getLast? ≠ some "")
    (alsoEnds : other.pieces.getLast? ≠ some "") (same : path.front = other.front) :
    path = other := by
  rw [front, if_neg ends, front, if_neg alsoEnds] at same
  exact pieces_injective same

/-! ## Going on from a path -/

/-- The piece that a component is read from. -/
def Component.piece : Component → String
  | .root => ""
  | .current => "."
  | .parent => ".."
  | .name text => text

theorem component?_eq_some {piece : String} {component : Component}
    (read : component? piece = some component) : component.piece = piece ∧ component ≠ .root := by
  rw [component?] at read
  split_ifs at read with filler parent
  · obtain rfl := Option.some.inj read
    exact ⟨parent.symm, by simp⟩
  · obtain rfl := Option.some.inj read
    exact ⟨rfl, by simp⟩

/-- No name in a path is empty. -/
theorem ne_empty_of_mem_components (path : Path) {text : String}
    (among : .name text ∈ path.components) : text ≠ "" := by
  have read : .name text ∈ path.pieces.filterMap component? := by
    rcases path.components_eq_lead with same | ⟨lead, rfl | rfl, same⟩ <;>
      simpa [same] using among
  obtain ⟨piece, -, read⟩ := List.mem_filterMap.mp read
  rintro rfl
  obtain rfl : "" = piece := (component?_eq_some read).1
  cases read

theorem isFiller_eq_false_iff (piece : String) :
    isFiller piece = false ↔ piece ≠ "" ∧ piece ≠ "." := by
  rw [isFiller, component?, ← not_or]
  split_ifs with filler <;> simp [filler]

theorem exists_component? {piece : String} (solid : isFiller piece = false) :
    ∃ component, component? piece = some component := by
  rw [isFiller, Option.isNone_eq_false_iff] at solid
  exact Option.isSome_iff_exists.mp solid

/-- Pieces that all are components are read back from these. -/
theorem map_piece_filterMap {pieces : List String}
    (solid : ∀ piece ∈ pieces, isFiller piece = false) :
    (pieces.filterMap component?).map Component.piece = pieces := by
  induction pieces with
  | nil => rfl
  | cons piece rest ih =>
    obtain ⟨first, later⟩ := List.forall_mem_cons.mp solid
    obtain ⟨component, read⟩ := exists_component? first
    rw [List.filterMap_cons_some read, List.map_cons, ih later, (component?_eq_some read).1]

/-- A path that goes on from a base by pieces that are components. -/
def Continues (base path : Path) : Prop :=
  ∃ behind, (∀ piece ∈ behind, isFiller piece = false) ∧ path.front = base.front ++ behind

namespace Continues

variable {base middle path other : Path}

theorem refl (path : Path) : Continues path path := ⟨[], by simp, by simp⟩

theorem trans (first : Continues base middle) (second : Continues middle path) :
    Continues base path := by
  obtain ⟨behind, solid, joined⟩ := first
  obtain ⟨further, alsoSolid, whole⟩ := second
  refine ⟨behind ++ further, List.forall_mem_append.mpr ⟨solid, alsoSolid⟩, ?_⟩
  rw [whole, joined, List.append_assoc]

theorem isAbsolute_eq (continues : Continues base path) : path.isAbsolute = base.isAbsolute := by
  obtain ⟨behind, solid, joined⟩ := continues
  rw [Bool.eq_iff_iff, isAbsolute_iff_front, isAbsolute_iff_front, joined]
  cases base.front with
  | cons first rest => simp
  | nil =>
    refine iff_of_false (fun empty => ?_) (by simp)
    exact ((isFiller_eq_false_iff "").mp (solid "" (List.mem_of_head? empty))).1 rfl

/-- The pieces that a path goes on by are the components that it has more. -/
theorem exists_components (continues : Continues base path) : ∃ behind,
    path.components = base.components ++ behind ∧
      path.front = base.front ++ behind.map Component.piece := by
  have absolute := continues.isAbsolute_eq
  obtain ⟨behind, solid, joined⟩ := continues
  refine ⟨behind.filterMap component?, ?_, by rw [map_piece_filterMap solid, joined]⟩
  rw [components_eq_front, components_eq_front, joined, absolute]
  cases empty : base.front with
  | cons first rest => rw [componentsOf_append _ (List.cons_ne_nil first rest)]
  | nil =>
    have relative : base.isAbsolute = false := by
      rw [← Bool.not_eq_true, isAbsolute_iff_front, empty]
      simp
    rw [relative]
    cases behind with
    | nil => rfl
    | cons first rest =>
      have noDot := ((isFiller_eq_false_iff first).mp (solid first (List.mem_cons_self ..))).2
      cases component : component? first <;> simp [componentsOf, noDot, component]

/-- From one base, the components of a path give its front. -/
theorem front_eq (continues : Continues base path) (also : Continues base other)
    (same : path.components = other.components) : path.front = other.front := by
  obtain ⟨behind, components, joined⟩ := continues.exists_components
  obtain ⟨further, alsoComponents, alsoJoined⟩ := also.exists_components
  rw [components, alsoComponents, List.append_cancel_left_eq] at same
  rw [joined, alsoJoined, same]

/-- From one base, components that a path has more than another one are pieces that it has more. -/
theorem front_append (continues : Continues base path) (also : Continues base other)
    {names : List String} (more : path.components = other.components ++ names.map .name) :
    path.front = other.front ++ names := by
  obtain ⟨behind, components, joined⟩ := continues.exists_components
  obtain ⟨further, alsoComponents, alsoJoined⟩ := also.exists_components
  rw [components, alsoComponents, List.append_assoc, List.append_cancel_left_eq] at more
  rw [joined, alsoJoined, more, List.map_append, List.map_map, List.append_assoc]
  congr 2
  exact List.map_id names

end Continues

theorem isAbsolute_iff_components (path : Path) :
    path.isAbsolute = true ↔ path.components.head? = some .root := by
  obtain ⟨first, rest, cuts⟩ := path.exists_pieces
  have noRoot : (rest.filterMap component?).head? ≠ some .root := fun head => by
    obtain ⟨piece, -, read⟩ := List.mem_filterMap.mp (List.mem_of_head? head)
    exact (component?_eq_some read).2 rfl
  rw [components_eq, cuts, componentsOf]
  cases path.isAbsolute with
  | true => simp
  | false =>
    by_cases dot : first = "."
    · simp [dot]
    · cases read : component? first with
      | none => simpa [dot, read] using noRoot
      | some component => simpa [dot, read] using (component?_eq_some read).2

/-! ## Plain spellings -/

/-- A path without `.` and without an empty piece between two slashes. -/
def IsPlain (path : Path) : Prop :=
  "." ∉ path.pieces ∧ "" ∉ path.pieces.tail.dropLast

instance (path : Path) : Decidable path.IsPlain :=
  inferInstanceAs (Decidable ("." ∉ path.pieces ∧ "" ∉ path.pieces.tail.dropLast))

/-- Where a path starts. -/
def start (absolute : Bool) : Path := ⟨if absolute then "/" else ""⟩

theorem IsPlain.not_mem_front {path : Path} (plain : path.IsPlain) :
    "." ∉ path.front ∧ "" ∉ path.front.tail := by
  obtain ⟨noDot, noGap⟩ := plain
  rw [front]
  split_ifs with ends
  · exact ⟨mt List.mem_of_mem_dropLast noDot, by rwa [List.tail_dropLast]⟩
  · refine ⟨noDot, fun gap => noGap ?_⟩
    -- The last piece is not empty, so an empty one stands before it.
    obtain ⟨first, rest, cuts⟩ := path.exists_pieces
    rw [cuts, List.tail_cons] at gap ⊢
    have nonempty := List.ne_nil_of_mem gap
    rw [cuts, List.getLast?_cons_of_ne_nil nonempty] at ends
    exact List.mem_dropLast_of_mem_of_ne_getLast? gap (Ne.symm ends)

/-- A plain path goes on from where it starts. -/
theorem IsPlain.continues {path : Path} (plain : path.IsPlain) :
    Continues (start path.isAbsolute) path := by
  obtain ⟨noDot, noGap⟩ := plain.not_mem_front
  have solid : ∀ piece ∈ path.front.tail, isFiller piece = false := fun piece among => by
    rw [isFiller_eq_false_iff]
    exact ⟨fun empty => noGap (empty ▸ among), fun dot => noDot (dot ▸ List.mem_of_mem_tail among)⟩
  have absolute := path.isAbsolute_iff_front
  cases begins : path.isAbsolute with
  | true =>
    refine ⟨path.front.tail, solid, ?_⟩
    have top : (start true).front = [""] := by decide +kernel
    rw [top, List.singleton_append]
    exact (List.cons_head?_tail (absolute.mp begins)).symm
  | false =>
    have top : (start false).front = [] := by decide +kernel
    refine ⟨path.front, fun piece among => ?_, by rw [top, List.nil_append]⟩
    obtain ⟨first, rest, whole⟩ := List.exists_cons_of_ne_nil (List.ne_nil_of_mem among)
    rw [whole, begins] at absolute
    rw [whole] at among noDot solid
    rcases List.mem_cons.mp among with rfl | later
    · rw [isFiller_eq_false_iff]
      exact ⟨fun empty => by simp [empty] at absolute, fun dot => noDot (dot ▸ among)⟩
    · exact solid piece later

theorem continues_join (base : Path) {path : Path} (plain : path.IsPlain)
    (relative : path.isAbsolute = false) : Continues base (base.join path) := by
  obtain ⟨behind, solid, whole⟩ := plain.continues
  rw [relative] at whole
  refine ⟨behind, solid, ?_⟩
  rw [front_join base relative, whole]
  rfl

end TemplateLint.Path
