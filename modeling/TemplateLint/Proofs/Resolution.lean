import Mathlib
import TemplateLint.Proofs.Files

/-! # Where a path leads

A path that leads to an entry leads to the one that its components name, with every `..` taking back
the name before it. So which of two paths lead to one entry can be told from their components alone,
but it takes more than comparing them. Components follow the spelling of a path: a name below a path
is one more component.
-/

namespace TemplateLint

namespace Path

/-! ## Pieces -/

theorem cut_ne_nil (text : List Char) : cut text ≠ [] := by
  induction text with
  | nil => simp [cut]
  | cons c rest ih =>
    rw [cut]
    split_ifs
    · simp
    · split <;> simp

theorem cut_append_slash (before behind : List Char) :
    cut (before ++ '/' :: behind) = cut before ++ cut behind := by
  induction before with
  | nil => simp [cut]
  | cons c rest ih =>
    rw [List.cons_append, cut, cut, ih]
    obtain ⟨piece, others, first⟩ := List.exists_cons_of_ne_nil (cut_ne_nil rest)
    split_ifs
    · rfl
    · rw [first]
      rfl

theorem cut_eq_singleton {text : List Char} (slashless : '/' ∉ text) : cut text = [text] := by
  induction text with
  | nil => rfl
  | cons c rest ih =>
    obtain ⟨other, later⟩ := not_or.mp (mt List.mem_cons.mpr slashless)
    rw [cut, if_neg (Ne.symm other), ih later]

theorem exists_pieces (path : Path) : ∃ first rest, path.pieces = first :: rest := by
  refine List.exists_cons_of_ne_nil ?_
  rw [pieces, Ne, List.map_eq_nil_iff]
  exact cut_ne_nil _

/-- An absolute path has an empty piece before its first slash. -/
theorem pieces_of_isAbsolute {path : Path} {first : String} {rest : List String}
    (absolute : path.isAbsolute = true) (cuts : path.pieces = first :: rest) : first = "" := by
  obtain ⟨behind, whole⟩ : ∃ behind, path.spelling.toList = '/' :: behind := by
    rw [isAbsolute, beq_iff_eq] at absolute
    exact List.head?_eq_some_iff.mp absolute
  rw [pieces, whole, cut, if_pos rfl, List.map_cons] at cuts
  exact (List.cons.inj cuts).1.symm

/-! ## Components -/

/-- The components of a path by its pieces. -/
def componentsOf (absolute : Bool) : List String → List Component
  | [] => []
  | first :: rest =>
    (if absolute then [.root] else if first = "." then [.current] else (component? first).toList) ++
      rest.filterMap component?

theorem components_eq (path : Path) : path.components = componentsOf path.isAbsolute path.pieces := by
  obtain ⟨first, rest, cuts⟩ := path.exists_pieces
  rw [components, parts, cuts, componentsOf]
  dsimp only
  split_ifs
  · rfl
  · rfl
  · cases component : component? first <;> simp [component]

theorem componentsOf_concat (absolute : Bool) {pieces : List String} (nonempty : pieces ≠ [])
    (piece : String) : componentsOf absolute (pieces ++ [piece]) =
      componentsOf absolute pieces ++ (component? piece).toList := by
  obtain ⟨first, rest, rfl⟩ := List.exists_cons_of_ne_nil nonempty
  rw [List.cons_append, componentsOf, componentsOf, List.filterMap_append, List.append_assoc]
  cases component : component? piece <;> simp [component]

/-- A name that an entry may have in a directory. -/
def IsName (name : String) : Prop :=
  name ≠ "" ∧ name ≠ "." ∧ name ≠ ".." ∧ '/' ∉ name.toList

instance (name : String) : Decidable (IsName name) :=
  inferInstanceAs (Decidable (name ≠ "" ∧ name ≠ "." ∧ name ≠ ".." ∧ '/' ∉ name.toList))

theorem component?_of_isName {name : String} (named : IsName name) :
    component? name = some (.name name) := by
  obtain ⟨nonempty, noDot, noDots, -⟩ := named
  rw [component?, if_neg (not_or.mpr ⟨nonempty, noDot⟩), if_neg noDots]

/-- A relative path below another one: its pieces come behind those of the other, of which an empty
last one goes. -/
theorem join_cases (base : Path) {path : Path} (relative : path.isAbsolute = false) :
    (base.spelling = "" ∧ base.join path = path) ∨
      ∃ front, front ≠ [] ∧ (base.join path).pieces = front ++ path.pieces ∧
        (base.join path).isAbsolute = base.isAbsolute ∧
        (base.pieces = front ∨ base.pieces = front ++ [""]) := by
  have notAbsolute : ¬ path.isAbsolute = true := by simp [relative]
  by_cases empty : base.spelling = ""
  · left
    refine ⟨empty, ?_⟩
    rw [join, if_neg notAbsolute, if_pos (.inl (by simp [empty])), empty, String.empty_append]
  · right
    have nonempty : base.spelling.toList ≠ [] := mt String.toList_eq_nil_iff.mp empty
    by_cases slash : base.spelling.toList.getLast? = some '/'
    · obtain ⟨before, whole⟩ := List.getLast?_eq_some_iff.mp slash
      have joined : (base.join path).spelling.toList = before ++ '/' :: path.spelling.toList := by
        simp [join, relative, whole]
      refine ⟨(cut before).map String.ofList, by simp [cut_ne_nil], ?_, ?_, .inr ?_⟩
      · rw [pieces, joined, cut_append_slash, List.map_append, pieces]
      · rw [isAbsolute, isAbsolute, joined, whole]
        cases before <;> rfl
      · rw [pieces, whole, cut_append_slash, List.map_append]
        rfl
    · have joined : (base.join path).spelling.toList =
          base.spelling.toList ++ '/' :: path.spelling.toList := by
        simp [join, relative, slash, empty]
      refine ⟨base.pieces, by simp [pieces, cut_ne_nil], ?_, ?_, .inl rfl⟩
      · rw [pieces, joined, cut_append_slash, List.map_append, pieces, pieces]
      · rw [isAbsolute, isAbsolute, joined, List.head?_append_of_ne_nil _ nonempty]

/-- A name below a path is one more component. -/
theorem components_child (base : Path) {name : String} (named : IsName name) :
    (base.child name).components = base.components ++ [.name name] := by
  have slashless := named.2.2.2
  have relative : (⟨name⟩ : Path).isAbsolute = false := by
    rw [isAbsolute, beq_eq_false_iff_ne]
    exact fun first => slashless (List.mem_of_head? first)
  have single : (⟨name⟩ : Path).pieces = [name] := by
    rw [pieces, cut_eq_singleton slashless, List.map_singleton, String.ofList_toList]
  have component := component?_of_isName named
  obtain ⟨empty, joined⟩ | ⟨front, nonempty, joined, absolute, own⟩ := base.join_cases relative
  · obtain rfl : base = ⟨""⟩ := congrArg Path.mk empty
    have none : (⟨""⟩ : Path).components = [] := by decide
    rw [child, joined, none, components_eq, relative, single, componentsOf, component]
    simp [named.2.1]
  · rw [child, components_eq, joined, single, absolute, componentsOf_concat _ nonempty, component,
      components_eq]
    rcases own with same | slash
    · rw [same]
      rfl
    · rw [slash, componentsOf_concat _ nonempty]
      simp [component?]

/-! ## Resolving -/

/-- Where a component leads from a route. -/
def Component.follow (route : Route) : Component → Route
  | .parent => route.dropLast
  | .name text => route ++ [text]
  | _ => route

/-- The route that the components of a path name. -/
def resolved (path : Path) : Route := path.components.foldl Component.follow []

/-- Names lead below a route. -/
theorem foldl_follow_names (route names : Route) :
    (names.map Component.name).foldl Component.follow route = route ++ names := by
  induction names generalizing route with
  | nil => simp
  | cons name rest ih => simp [Component.follow, ih]

/-- Where a name that is looked up leads from a route. -/
def lookUp (route : Route) (piece : String) : Route :=
  if piece = "." then route else if piece = ".." then route.dropLast else route ++ [piece]

theorem foldl_lookUp (pieces : List String) (route : Route) :
    (pieces.filter fun piece => !piece.isEmpty).foldl lookUp route =
      (pieces.filterMap component?).foldl Component.follow route := by
  induction pieces generalizing route with
  | nil => rfl
  | cons piece rest ih =>
    by_cases empty : piece = ""
    · simp [empty, component?, ih]
    · by_cases dot : piece = "."
      · simp [dot, component?, lookUp, ih]
      · by_cases dots : piece = ".."
        · simp [dots, component?, lookUp, ih, Component.follow]
        · simp [empty, dot, dots, component?, lookUp, ih, Component.follow]

theorem resolved_eq (path : Path) :
    path.resolved = (path.pieces.filterMap component?).foldl Component.follow [] := by
  obtain ⟨first, rest, cuts⟩ := path.exists_pieces
  rw [resolved, components_eq, cuts, componentsOf, List.foldl_append]
  split_ifs with absolute dot
  · rw [pieces_of_isAbsolute absolute cuts]
    rfl
  · rw [dot]
    rfl
  · cases component : component? first <;> simp [component]

end Path

namespace Disk

theorem follow_eq_foldl {disk : Disk} {start route : Route} {names : List String} {entry : Entry}
    (found : disk.follow start names = .ok (.present route entry)) :
    route = names.foldl Path.lookUp start := by
  induction names generalizing start with
  | nil =>
    unfold follow at found
    split at found
    · cases found
      rfl
    · cases found
  | cons name rest ih =>
    rw [follow_cons] at found
    split at found
    · cases found
    · rw [List.foldl_cons, Path.lookUp]
      split_ifs at found ⊢ with dot dots
      · exact ih found
      · exact ih found
      · cases found
      · exact ih found

/-- A path that leads to an entry leads where its components resolve to. -/
theorem route?_eq_resolved (disk : Disk) (path : Path) :
    disk.route? path = if disk.has path then some path.resolved else none := by
  rw [route?, has]
  rcases found : disk.find path with _ | ⟨route, entry⟩ | _
  · rfl
  · have here := follow_eq_foldl (follow_of_find found)
    rw [lookups, Path.foldl_lookUp, ← Path.resolved_eq] at here
    rw [here]
    rfl
  · rfl

/-- Two paths lead to one entry if both lead somewhere and their components resolve alike. -/
theorem sameFile_iff (disk : Disk) (a b : Path) :
    disk.SameFile a b ↔ disk.has a = true ∧ disk.has b = true ∧ a.resolved = b.resolved := by
  rw [SameFile]
  simp only [route?_eq_resolved, Option.mem_def]
  split_ifs with first second
  · simp [first, second, eq_comm]
  · simp [second]
  · simp [first]
  · simp [first]

/-- Every name on a disk is one that an entry may have. -/
def WellNamed (disk : Disk) : Prop := ∀ known ∈ disk.entries, ∀ name ∈ known.1, Path.IsName name

instance (disk : Disk) : Decidable disk.WellNamed :=
  inferInstanceAs (Decidable (∀ known ∈ disk.entries, ∀ name ∈ known.1, Path.IsName name))

end Disk

end TemplateLint
