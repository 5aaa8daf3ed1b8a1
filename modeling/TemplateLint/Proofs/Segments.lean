import Mathlib
import TemplateLint.Catalog.Basic
import TemplateLint.Proofs.Remainders

/-! # Segments of a key

The segments of a key follow from the names among the components of a path and from nothing else
about the path. Fillers in its spelling are no components, and a project root before it is taken
away again, so that one template has one place in the catalog however its path is written.
-/

namespace TemplateLint

namespace Path

/-! ## Padding -/

/-- A path with one filler more in its spelling. -/
inductive Padding : Path → Path → Prop where
  /-- A `.` as a component before others, at the beginning or behind a slash. -/
  | dot (before behind : String) (starts : before = "" ∨ ∃ text, before = text ++ "/") :
      Padding ⟨before ++ behind⟩ ⟨before ++ "./" ++ behind⟩
  /-- A `.` as the last component. -/
  | lastDot (before : String) (starts : before = "" ∨ ∃ text, before = text ++ "/") :
      Padding ⟨before⟩ ⟨before ++ "."⟩
  /-- A slash that is repeated. -/
  | slash (before behind : String) :
      Padding ⟨before ++ "/" ++ behind⟩ ⟨before ++ "//" ++ behind⟩
  /-- A slash at the end. -/
  | trailing (text : String) : Padding ⟨text⟩ ⟨text ++ "/"⟩

namespace Padding

variable {path other : Path}

/-- Padding adds no component but perhaps the `.` that a path starts with. -/
theorem filterMap_pieces (padding : Padding path other) :
    other.pieces.filterMap component? = path.pieces.filterMap component? := by
  have empty : (⟨""⟩ : Path).pieces = [""] := by decide
  have current : (⟨"."⟩ : Path).pieces = ["."] := by decide
  have noEmpty : component? "" = none := rfl
  have noDot : component? "." = none := rfl
  have dotted (behind : String) : (⟨"./" ++ behind⟩ : Path).pieces.filterMap component? =
      (⟨behind⟩ : Path).pieces.filterMap component? := by
    have same : "./" ++ behind = "." ++ "/" ++ behind := rfl
    rw [same, pieces_append_slash, current, List.singleton_append,
      List.filterMap_cons_none noDot]
  cases padding with
  | dot before behind starts =>
    obtain rfl | ⟨text, rfl⟩ := starts
    · rw [String.empty_append, String.empty_append, dotted]
    · rw [String.append_assoc, pieces_append_slash, pieces_append_slash, List.filterMap_append,
        List.filterMap_append, dotted]
  | lastDot before starts =>
    obtain rfl | ⟨text, rfl⟩ := starts
    · rw [String.empty_append, current, empty]
      rfl
    · have same : text ++ "/" = text ++ "/" ++ "" := (String.append_empty).symm
      rw [pieces_append_slash, same, pieces_append_slash, current, empty, List.filterMap_append,
        List.filterMap_append]
      rfl
  | slash before behind =>
    have same : before ++ "//" ++ behind = before ++ "/" ++ "" ++ "/" ++ behind := by
      simp [String.append_assoc]
    rw [same, pieces_append_slash, pieces_append_slash, pieces_append_slash, empty]
    simp [noEmpty]
  | trailing text =>
    have same : text ++ "/" = text ++ "/" ++ "" := (String.append_empty).symm
    rw [same, pieces_append_slash, empty, List.filterMap_append, List.filterMap_cons_none noEmpty,
      List.filterMap_nil, List.append_nil]

/-- Padding makes a path absolute only by a slash at the end of the empty path. -/
theorem isAbsolute (padding : Padding path other) (relative : path.isAbsolute = false) :
    other.isAbsolute = false ∨ path = ⟨""⟩ := by
  have goesOn {text : String} (nonempty : text ≠ "") (rest : String) :
      (⟨text ++ rest⟩ : Path).isAbsolute = (⟨text⟩ : Path).isAbsolute := by
    have some : text.toList ≠ [] := mt String.toList_eq_nil_iff.mp nonempty
    rw [Path.isAbsolute, Path.isAbsolute, String.toList_append, List.head?_append_of_ne_nil _ some]
  cases padding with
  | dot before behind starts =>
    left
    rcases eq_or_ne before "" with rfl | nonempty
    · rw [String.empty_append, goesOn (by decide)]
      rfl
    · rwa [String.append_assoc, goesOn nonempty, ← goesOn nonempty behind]
  | lastDot before starts =>
    left
    rcases eq_or_ne before "" with rfl | nonempty
    · rfl
    · rwa [goesOn nonempty]
  | slash before behind =>
    left
    have nonempty : before ++ "/" ≠ "" := by simp
    have same : before ++ "//" ++ behind = before ++ "/" ++ ("/" ++ behind) :=
      String.toList_inj.mp (by simp)
    rwa [same, goesOn nonempty, ← goesOn nonempty behind]
  | trailing text =>
    rcases eq_or_ne text "" with rfl | nonempty
    · exact .inr rfl
    · exact .inl (by rwa [goesOn nonempty])

end Padding

/-- However often a relative path is padded, its components stay, and it stays relative if it has
any. -/
theorem padded {path other : Path} (relative : path.isAbsolute = false)
    (padding : Relation.ReflTransGen Padding path other) :
    other.pieces.filterMap component? = path.pieces.filterMap component? ∧
      (other.isAbsolute = false ∨ path.pieces.filterMap component? = []) := by
  induction padding with
  | refl => exact ⟨rfl, .inl relative⟩
  | tail _ last ih =>
    obtain ⟨same, stays⟩ := ih
    refine ⟨last.filterMap_pieces.trans same, ?_⟩
    rcases stays with stays | none
    · refine (last.isAbsolute stays).imp_right ?_
      rintro rfl
      exact same.symm
    · exact .inr none

/-! ## Stems -/

/-- What a file name is without its extension: the text before its last dot, unless there is
nothing before it. -/
inductive IsStem (name : String) : String → Prop where
  | cut {before ending : String} (nonempty : before ≠ "") (dotless : '.' ∉ ending.toList)
      (whole : name = before ++ "." ++ ending) : IsStem name before
  | whole (first : ∀ before ending, name = before ++ "." ++ ending → before = "") :
      IsStem name name

theorem stem_of_dotless {name : String} (dotless : '.' ∉ name.toList) : stem name = name := by
  have all : name.toList.reverse.takeWhile (· ≠ '.') = name.toList.reverse := by
    refine List.takeWhile_eq_self_iff.mpr fun c among => ?_
    exact decide_eq_true fun dot => dotless (dot ▸ List.mem_reverse.mp among)
  rw [stem, all, if_pos (.inl (by rw [List.length_reverse, String.length_toList]))]

theorem stem_append (before : String) {ending : String} (dotless : '.' ∉ ending.toList) :
    stem (before ++ "." ++ ending) = if before = "" then "." ++ ending else before := by
  set name := before ++ "." ++ ending with joined
  have whole : name.toList = before.toList ++ '.' :: ending.toList := by simp [joined]
  have other : ∀ c ∈ ending.toList.reverse, decide (c ≠ '.') = true := fun c among =>
    decide_eq_true fun dot => dotless (dot ▸ List.mem_reverse.mp among)
  have behind : name.toList.reverse.takeWhile (· ≠ '.') = ending.toList.reverse := by
    rw [whole, List.reverse_append, List.reverse_cons, List.append_assoc,
      List.takeWhile_append_of_pos other]
    simp
  have length : name.length = before.toList.length + (ending.toList.length + 1) := by
    rw [← String.length_toList, whole, List.length_append, List.length_cons]
  have front : name.toList.take (name.length - ending.toList.length - 1) = before.toList := by
    have count : name.length - ending.toList.length - 1 = before.toList.length := by omega
    rw [count, whole, List.take_left]
  rw [stem, behind, List.length_reverse, front, String.ofList_toList]
  split_ifs with stays empty empty
  · rw [joined, empty, String.empty_append]
  · rcases stays with short | none
    · omega
    · exact absurd (by simpa using none) empty
  · exact absurd (.inr (by simp [empty])) stays
  · rfl

theorem isStem_stem (name : String) : IsStem name (stem name) := by
  obtain ⟨last, dotless, same | ⟨before, same⟩⟩ := exists_last_part '.' name.toList
  · rw [← same] at dotless
    rw [stem_of_dotless dotless]
    refine .whole fun before ending whole => ?_
    simp [whole] at dotless
  · have other : '.' ∉ (String.ofList last).toList := by rwa [String.toList_ofList]
    obtain rfl : name = String.ofList before ++ "." ++ String.ofList last :=
      String.toList_inj.mp (by simp [same])
    rw [stem_append _ other]
    split_ifs with empty
    · rw [empty, String.empty_append]
      -- The only dot comes first.
      refine .whole fun front ending whole => ?_
      by_contra nonempty
      obtain ⟨c, rest, begins⟩ := List.exists_cons_of_ne_nil (mt String.toList_eq_nil_iff.mp nonempty)
      have texts := congrArg String.toList whole
      simp only [String.toList_append, begins, String.toList_ofList] at texts
      obtain ⟨-, rfl⟩ : '.' = c ∧ last = rest ++ '.' :: ending.toList := by simpa using texts
      simp at dotless
    · exact .cut empty other rfl

end Path

namespace Key

/-! ## Names -/

/-- The text of a component that is a name. -/
def name? : Path.Component → Option String
  | .name text => some text
  | _ => none

theorem names_eq_components (path : Path) : names path = path.components.filterMap name? := by
  rw [names]
  congr 1

/-- A `.` or a slash at the beginning of a path is no name. -/
theorem names_eq (path : Path) :
    names path = (path.pieces.filterMap Path.component?).filterMap name? := by
  rw [names_eq_components]
  rcases path.components_eq_lead with same | ⟨lead, rfl | rfl, same⟩ <;> rw [same] <;> rfl

theorem mapLast_concat {α : Type} (f : α → α) (items : List α) (last : α) :
    mapLast f (items ++ [last]) = items ++ [f last] := by
  induction items with
  | nil => rfl
  | cons item rest ih =>
    cases rest with
    | nil => rfl
    | cons next more => simpa [mapLast] using ih

theorem length_mapLast {α : Type} (f : α → α) (items : List α) :
    (mapLast f items).length = items.length := by
  rcases List.eq_nil_or_concat items with rfl | ⟨before, last, rfl⟩
  · rfl
  · simp [mapLast_concat]

theorem segments_eq (path : Path) (text : String) {first last : String} {middle : List String}
    (named : names path = first :: (middle ++ [last])) :
    segments path text = middle ++ [Path.stem last, text] := by
  have changed : mapLast Path.stem (names path) = first :: (middle ++ [Path.stem last]) := by
    rw [named, ← List.cons_append, mapLast_concat, List.cons_append]
  rw [segments, changed, List.drop_one, List.tail_cons, List.append_assoc]
  rfl

end Key

namespace Catalog

/-! ## Paths of templates -/

variable {root path : Path}

theorem names_relativeTo_suffix (nonempty : root.components ≠ []) (path : Path) :
    Key.names (path.relativeTo root) <:+ Key.names path := by
  rw [Path.relativeTo]
  cases stripped : path.stripPrefix? root with
  | none => exact List.suffix_refl _
  | some relative =>
    obtain ⟨-, -, whole⟩ := Path.components_of_stripPrefix? nonempty stripped
    rw [Option.getD_some, Key.names_eq_components, Key.names_eq_components path, whole,
      List.filterMap_append]
    exact List.suffix_append _ _

/-- A root before a relative path is taken away again. -/
theorem names_relativeTo_join (nonempty : root.components ≠ []) (relative : path.isAbsolute = false) :
    Key.names ((root.join path).relativeTo root) = Key.names path := by
  have joined := Path.components_join nonempty relative
  have starts : (root.join path).startsWith root = true := by
    rw [Path.startsWith, joined, List.isPrefixOf_iff_prefix]
    exact List.prefix_append _ _
  rw [← Path.isSome_stripPrefix?] at starts
  obtain ⟨rest, stripped⟩ := Option.isSome_iff_exists.mp starts
  obtain ⟨-, pieces, whole⟩ := Path.components_of_stripPrefix? nonempty stripped
  rw [joined, List.append_cancel_left_eq] at whole
  rw [Path.relativeTo, stripped, Option.getD_some, Key.names_eq, pieces, ← whole, ← Key.names_eq]

/-- A relative path does not lie below an absolute root. -/
theorem relativeTo_of_relative (absolute : root.isAbsolute = true)
    (relative : path.isAbsolute = false) : path.relativeTo root = path := by
  have starts : path.startsWith root = false := by
    rw [Path.startsWith, ← Bool.not_eq_true, List.isPrefixOf_iff_prefix]
    rintro ⟨behind, whole⟩
    obtain ⟨rest, begins⟩ :=
      List.head?_eq_some_iff.mp ((Path.isAbsolute_iff_components root).mp absolute)
    have alsoAbsolute := (Path.isAbsolute_iff_components path).mpr (by rw [← whole, begins]; rfl)
    rw [relative] at alsoAbsolute
    cases alsoAbsolute
  rw [← Path.isSome_stripPrefix?, Option.isSome_eq_false_iff, Option.isNone_iff_eq_none] at starts
  rw [Path.relativeTo, starts, Option.getD_none]

/-- The names of a path that is padded, or padded and put below the root, are those that the path
had. -/
theorem names_relativeTo_of_padding (absolute : root.isAbsolute = true)
    (relative : path.isAbsolute = false) {other : Path}
    (padding : Relation.ReflTransGen Path.Padding path other) :
    Key.names (other.relativeTo root) = Key.names path ∧
      Key.names ((root.join other).relativeTo root) = Key.names path := by
  have nonempty : root.components ≠ [] := by
    rw [Path.isAbsolute_iff_components] at absolute
    exact List.ne_nil_of_mem (List.mem_of_head? absolute)
  obtain ⟨pieces, stays⟩ := Path.padded relative padding
  have same : Key.names other = Key.names path := by rw [Key.names_eq, pieces, ← Key.names_eq]
  cases kind : other.isAbsolute with
  | false =>
    rw [relativeTo_of_relative absolute kind, names_relativeTo_join nonempty kind, same]
    exact ⟨rfl, rfl⟩
  | true =>
    -- Only the empty path becomes absolute, and it has no names to lose.
    have none : Key.names path = [] := by
      rw [Key.names_eq, stays.resolve_left (by simp [kind])]
      rfl
    have left := names_relativeTo_suffix nonempty other
    rw [same, none, List.suffix_nil] at left
    rw [Path.join, if_pos kind, none]
    exact ⟨left, left⟩

/-- The segments of a text do not depend on how the path of its template is spelled: neither on an
absolute root before it nor on fillers in it. They are the names of the path behind the first one,
the last of them without its extension, and the text. -/
theorem segments_follow_names (catalog : Catalog) (absolute : catalog.root.isAbsolute = true)
    (relative : path.isAbsolute = false) (text : String) :
    catalog.segments (catalog.root.join path).spelling text =
      catalog.segments path.spelling text ∧
    (∀ other, Relation.ReflTransGen Path.Padding path other →
      catalog.segments other.spelling text = catalog.segments path.spelling text ∧
      catalog.segments (catalog.root.join other).spelling text =
        catalog.segments path.spelling text) ∧
    (catalog.segments path.spelling text).length = max (Key.names path).length 1 ∧
    (catalog.segments path.spelling text).getLast? = some text ∧
    ∀ first middle last, Key.names path = first :: (middle ++ [last]) →
      ∃ stem, Path.IsStem last stem ∧
        catalog.segments path.spelling text = middle ++ [stem, text] := by
  have own : catalog.segments path.spelling text = Key.segments path text := by
    rw [segments, relativeTo_of_relative absolute relative]
  have again : ∀ other, Relation.ReflTransGen Path.Padding path other →
      catalog.segments other.spelling text = Key.segments path text ∧
      catalog.segments (catalog.root.join other).spelling text = Key.segments path text := by
    intro other padding
    obtain ⟨alone, below⟩ := names_relativeTo_of_padding absolute relative padding
    rw [segments, segments, Key.segments, Key.segments, Key.segments, alone, below]
    exact ⟨rfl, rfl⟩
  rw [own]
  refine ⟨(again path .refl).2, again, ?_, ?_, fun first middle last named => ?_⟩
  · rw [Key.segments, List.length_append, List.length_drop, Key.length_mapLast,
      List.length_singleton]
    omega
  · rw [Key.segments, List.getLast?_concat]
  · exact ⟨Path.stem last, Path.isStem_stem last, Key.segments_eq path text named⟩

/-- A path with all kinds of fillers, below a root that ends in a slash. -/
theorem segments_of_padded_path :
    (⟨"/project/"⟩ : Path).isAbsolute = true ∧ (⟨"app/ui/menu.item.hbs"⟩ : Path).isAbsolute = false ∧
    Relation.ReflTransGen Path.Padding ⟨"app/ui/menu.item.hbs"⟩ ⟨"./app//ui/menu.item.hbs/."⟩ ∧
    segments { root := ⟨"/project/"⟩ } "/project/./app//ui/menu.item.hbs/." "Open" =
      ["ui", "menu.item", "Open"] := by
  have absolute : (⟨"/project/"⟩ : Path).isAbsolute = true := by decide
  have relative : (⟨"app/ui/menu.item.hbs"⟩ : Path).isAbsolute = false := by decide
  have padding :
      Relation.ReflTransGen Path.Padding ⟨"app/ui/menu.item.hbs"⟩ ⟨"./app//ui/menu.item.hbs/."⟩ :=
    .tail (.tail (.tail (.tail .refl (.dot "" "app/ui/menu.item.hbs" (.inl rfl)))
      (.slash "./app" "ui/menu.item.hbs")) (.trailing "./app//ui/menu.item.hbs"))
      (.lastDot "./app//ui/menu.item.hbs/" (.inr ⟨"./app//ui/menu.item.hbs", rfl⟩))
  obtain ⟨-, again, -, -, -⟩ :=
    segments_follow_names { root := ⟨"/project/"⟩ } absolute relative "Open"
  have plain : segments { root := ⟨"/project/"⟩ } "app/ui/menu.item.hbs" "Open" =
      ["ui", "menu.item", "Open"] := by
    decide +kernel
  exact ⟨absolute, relative, padding, (again _ padding).2.trans plain⟩

end Catalog

end TemplateLint
