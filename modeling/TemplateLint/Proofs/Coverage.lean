import Mathlib
import TemplateLint.Proofs.Exclusions
import TemplateLint.Proofs.Spelling
import TemplateLint.Proofs.Visits

/-! # What a listing covers

A listing of a file tree has the documents that are reached from one of the paths to look at and
that no pattern leaves out, each once, in the order of components. It is settled by which documents
there are. So it does not matter in which order the paths are given and the directories are read, or
whether a path is given twice or lies below another one, as long as a document has one spelling. For
this it is not enough that the given paths are spelled plainly: the root is a part of the relative
ones.
-/

namespace TemplateLint

namespace Disk

/-! ## File trees -/

/-- A file tree: routes are made of names, and there is one entry at each. -/
structure IsTree (disk : Disk) : Prop where
  named : disk.WellNamed
  single : (disk.entries.map Prod.fst).Nodup

theorem IsTree.entry?_eq_some_iff {disk : Disk} (tree : disk.IsTree) {route : Route}
    (nonempty : route ≠ []) (entry : Entry) :
    disk.entry? route = some entry ↔ (route, entry) ∈ disk.entries := by
  rw [Disk.entry?, if_neg (by simpa using nonempty), List.lookup_eq_some_iff]
  constructor
  · rintro ⟨before, after, whole, -⟩
    simp [whole]
  · intro known
    obtain ⟨before, after, whole⟩ := List.append_of_mem known
    refine ⟨before, after, whole, fun other among => ?_⟩
    have single := tree.single
    rw [whole, List.map_append, List.map_cons, List.nodup_append] at single
    simpa using (single.2.2 other.1 (List.mem_map_of_mem among) route (by simp)).symm

theorem isReached_iff (disk : Disk) (top below : Route) : disk.isReached top below = true ↔
    ∀ depth < below.length, disk.isListable (top ++ below.take depth) = true := by
  simp [isReached]

/-- A walk meets every entry below a route to which all directories on the way can be listed. -/
theorem IsTree.mem_walk_iff {disk : Disk} (tree : disk.IsTree) (top below : Route) (entry : Entry) :
    (below, entry) ∈ disk.walk top ↔
      disk.entry? (top ++ below) = some entry ∧ disk.isReached top below = true := by
  rw [walk]
  cases here : disk.entry? top with
  | none =>
    refine iff_of_false List.not_mem_nil ?_
    rintro ⟨known, reached⟩
    cases below with
    | nil => simp [here] at known
    | cons name rest => simpa [isListable, here] using (isReached_iff ..).mp reached 0 (by simp)
  | some first =>
    constructor
    · intro met
      obtain same | deeper := List.mem_cons.mp met
      · obtain ⟨rfl, rfl⟩ := Prod.mk.inj same
        exact ⟨by rwa [List.append_nil], by simp [isReached]⟩
      · obtain ⟨⟨route, other⟩, known, kept⟩ := List.mem_filterMap.mp deeper
        dsimp only at kept
        split_ifs at kept with reached
        obtain ⟨rfl, rfl⟩ := Prod.mk.inj (Option.some.inj kept)
        simp only [Bool.and_eq_true] at reached
        obtain ⟨⟨start, nonempty⟩, reached⟩ := reached
        obtain ⟨behind, rfl⟩ := List.isPrefixOf_iff_prefix.mp start
        rw [List.drop_left] at nonempty reached ⊢
        have below : top ++ behind ≠ [] := by simp_all
        exact ⟨(tree.entry?_eq_some_iff below _).mpr known, reached⟩
    · rintro ⟨known, reached⟩
      rcases eq_or_ne below [] with rfl | nonempty
      · rw [List.append_nil, here] at known
        exact Option.some.inj known ▸ List.mem_cons_self ..
      · rw [tree.entry?_eq_some_iff (by simp [nonempty])] at known
        refine List.mem_cons_of_mem _ (List.mem_filterMap.mpr ⟨_, known, ?_⟩)
        simp [nonempty, reached]

/-- A directory can be listed if it can be entered. -/
theorem isListable_iff (disk : Disk) (route : Route) :
    disk.isListable route = true ↔ disk.enter route = .ok () := by
  rw [isListable, enter]
  rcases disk.entry? route with _ | _ | _ | _ | _ <;> simp

/-! ## The way to an entry -/

theorem follow_nil_present_iff {disk : Disk} {start route : Route} {entry : Entry} :
    disk.follow start [] = .ok (.present route entry) ↔
      start = route ∧ disk.entry? start = some entry := by
  rw [follow]
  cases here : disk.entry? start <;> simp

/-- A name leads to an entry if it is looked up in a directory that can be listed, and the names
behind it lead there. -/
theorem follow_cons_present_iff {disk : Disk} {start route : Route} {piece : String}
    {rest : List String} {entry : Entry} :
    disk.follow start (piece :: rest) = .ok (.present route entry) ↔
      disk.isListable start = true ∧ piece.utf8ByteSize ≤ nameLimit ∧
        disk.follow (Path.lookUp start piece) rest = .ok (.present route entry) := by
  rw [follow_cons, isListable_iff, Path.lookUp]
  cases disk.enter start with
  | error error => simp
  | ok _ =>
    have dot : ".".utf8ByteSize ≤ nameLimit := by decide
    have dots : "..".utf8ByteSize ≤ nameLimit := by decide
    dsimp only
    split_ifs with current parent long vacant
    · simp [current, dot]
    · simp [parent, dots]
    · simp [long]
    · -- A vacant name leads to no entry, and neither does an end at a route without one.
      obtain ⟨free, rfl⟩ := vacant
      simp [follow, free]
    · simp [not_lt.mp long]

/-- On the way to an entry, every name is looked up in a directory that can be listed. -/
theorem isListable_of_follow {disk : Disk} {start route : Route} {pieces : List String}
    {entry : Entry}
    (found : disk.follow start (pieces.filter fun piece => !piece.isEmpty) =
      .ok (.present route entry))
    {before after : List Path.Component} {name : String}
    (split : pieces.filterMap Path.component? = before ++ .name name :: after) :
    disk.isListable (before.foldl Path.Component.follow start) = true := by
  induction pieces generalizing start before with
  | nil => simp at split
  | cons piece rest ih =>
    by_cases empty : piece = ""
    · refine ih ?_ ?_
      · simpa [empty] using found
      · simpa [empty, Path.component?] using split
    · rw [List.filter_cons_of_pos (by simpa using empty), follow_cons_present_iff] at found
      obtain ⟨listable, -, found⟩ := found
      by_cases dot : piece = "."
      · rw [Path.lookUp, if_pos dot] at found
        exact ih found (by simpa [dot, Path.component?] using split)
      · obtain ⟨component, read, here⟩ : ∃ component, Path.component? piece = some component ∧
            Path.lookUp start piece = component.follow start := by
          rw [Path.component?, if_neg (not_or.mpr ⟨empty, dot⟩), Path.lookUp, if_neg dot]
          split_ifs
          · exact ⟨.parent, rfl, rfl⟩
          · exact ⟨.name piece, rfl, rfl⟩
        rw [List.filterMap_cons_some read] at split
        rw [here] at found
        cases before with
        | nil => exact listable
        | cons first before =>
          obtain ⟨rfl, behind⟩ := List.cons.inj split
          exact ih found behind

/-- On the way to an entry, the first of the names lead to a directory. -/
theorem follow_append {disk : Disk} {start route : Route} {names behind : List String}
    {entry : Entry} (found : disk.follow start (names ++ behind) = .ok (.present route entry))
    (more : behind ≠ []) :
    ∃ middle access, disk.follow start names = .ok (.present middle (.directory access)) := by
  induction names generalizing start with
  | nil =>
    obtain ⟨name, rest, rfl⟩ := List.exists_cons_of_ne_nil more
    obtain ⟨listable, -⟩ := follow_cons_present_iff.mp found
    rw [isListable] at listable
    split at listable
    next => cases listable
    next access _ here => exact ⟨start, access, follow_nil_present_iff.mpr ⟨rfl, here⟩⟩
    next => cases listable
  | cons name rest ih =>
    obtain ⟨listable, short, found⟩ := follow_cons_present_iff.mp found
    obtain ⟨middle, access, here⟩ := ih found
    exact ⟨middle, access, follow_cons_present_iff.mpr ⟨listable, short, here⟩⟩

theorem exists_follow_of_has {disk : Disk} {path : Path} (present : disk.has path = true) :
    checkSpelling path = .ok () ∧
      ∃ route entry, disk.follow [] (lookups path) = .ok (.present route entry) := by
  rw [has] at present
  split at present
  next route entry found =>
    obtain ⟨_, spelled, _⟩ := bind_eq_ok_iff.mp found
    exact ⟨spelled, route, entry, follow_of_find found⟩
  next => cases present

theorem isListable_of_has {disk : Disk} {path : Path} (present : disk.has path = true)
    {before after : List Path.Component} {name : String}
    (split : path.components = before ++ .name name :: after) :
    disk.isListable (before.foldl Path.Component.follow []) = true := by
  obtain ⟨-, route, entry, found⟩ := exists_follow_of_has present
  rcases path.components_eq_lead with same | ⟨lead, kind, behind⟩
  · exact isListable_of_follow found (same.symm.trans split)
  · rw [behind] at split
    -- What a path may start with is no name and leads nowhere.
    cases before with
    | nil => rcases kind with rfl | rfl <;> cases split
    | cons first before =>
      obtain ⟨rfl, steps⟩ := List.cons.inj split
      have listable := isListable_of_follow found steps
      rcases kind with rfl | rfl <;> exact listable

/-- To the entries below a path that leads to an entry, every directory on the way can be listed. -/
theorem isListable_of_names {disk : Disk} {path : Path} (present : disk.has path = true)
    {before : List Path.Component} {names : Route}
    (split : path.components = before ++ names.map .name) {depth : Nat}
    (bound : depth < names.length) :
    disk.isListable (before.foldl Path.Component.follow [] ++ names.take depth) = true := by
  have whole : names = names.take depth ++ names[depth] :: names.drop (depth + 1) := by simp
  rw [whole, List.map_append, List.map_cons, ← List.append_assoc] at split
  have listable := isListable_of_has present split
  rwa [List.foldl_append, Path.foldl_follow_names] at listable

theorem lookups_eq_front (path : Path) :
    lookups path = path.front.filter fun piece => !piece.isEmpty := by
  obtain ⟨last, kind, cuts⟩ := path.exists_pieces_eq
  rw [lookups, cuts, List.filter_append]
  rcases kind with rfl | rfl <;> simp

theorem checkSpelling_of_append {base path : Path} {rest : String}
    (longer : path.spelling = base.spelling ++ rest) (spelled : checkSpelling path = .ok ()) :
    checkSpelling base = .ok () := by
  rw [checkSpelling, longer] at spelled
  split_ifs at spelled with nul long
  rw [String.toList_append, List.contains_append, Bool.or_eq_true, not_or] at nul
  rw [String.utf8ByteSize_append] at long
  rw [checkSpelling, if_neg nul.1, if_neg (by omega)]

/-- If a path with more names leads to an entry, the one without them leads to a directory. -/
theorem has_of_has {disk : Disk} {outer inner : Path} {names : Route}
    (present : disk.has inner = true) (solid : ∃ name ∈ names, name ≠ "")
    (joined : inner.front = outer.front ++ names) : disk.has outer = true := by
  obtain ⟨spelled, route, entry, found⟩ := exists_follow_of_has present
  obtain ⟨name, among, nonempty⟩ := solid
  obtain ⟨rest, longer⟩ := Path.exists_spelling_eq (List.ne_nil_of_mem among) joined
  have more : names.filter (fun piece => !piece.isEmpty) ≠ [] :=
    List.ne_nil_of_mem (List.mem_filter.mpr ⟨among, by simpa using nonempty⟩)
  rw [lookups_eq_front, joined, List.filter_append, ← lookups_eq_front] at found
  obtain ⟨middle, access, here⟩ := follow_append found more
  have leads : disk.find outer = .ok (.present middle (.directory access)) := by
    rw [find, checkSpelling_of_append longer spelled, here]
    rfl
  rw [has, leads]

end Disk

/-! ## Putting paths in order -/

/-- Whether a path comes before another one, component by component. -/
def Path.Precedes (a b : Path) : Prop :=
  a.components.map Component.key < b.components.map Component.key

instance : Std.Irrefl Path.Precedes := ⟨fun _ => lt_irrefl _⟩

instance : Std.Antisymm Path.Precedes :=
  ⟨fun _ _ first second => absurd first (lt_asymm second)⟩

namespace Listing

theorem pairwise_precedes_inOrder (paths : List Path) : (inOrder paths).Pairwise Path.Precedes := by
  have sorted := (Path.pairwise_mergeSort_le paths).sublist (dropRepeated_sublist _)
  refine sorted.imp₂ (fun a b le apart => ?_) (pairwise_inOrder paths)
  refine lt_of_le_of_ne ((Path.le_iff a b).mp le) fun same => ?_
  have alike := (Path.same_iff a b).mpr (Path.Component.key_injective.list_map same)
  rw [alike] at apart
  cases apart

theorem exists_inOrder_iff (paths : List Path) (path : Path) :
    (∃ kept ∈ inOrder paths, kept.same path = true) ↔ ∃ found ∈ paths, found.same path = true := by
  constructor
  · rintro ⟨kept, among, same⟩
    exact ⟨kept, mem_of_mem_inOrder among, same⟩
  · rintro ⟨found, among, same⟩
    obtain ⟨kept, present, alike⟩ := exists_inOrder among
    rw [Path.same_iff] at same
    exact ⟨kept, present, by rwa [Path.same_iff, ← same, ← Path.same_iff]⟩

/-- Paths with different components are all kept. -/
theorem mem_inOrder_iff {paths : List Path}
    (distinct : ∀ a ∈ paths, ∀ b ∈ paths, a.components = b.components → a = b) (path : Path) :
    path ∈ inOrder paths ↔ path ∈ paths := by
  refine ⟨mem_of_mem_inOrder, fun among => ?_⟩
  obtain ⟨kept, present, same⟩ :=
    (exists_inOrder_iff paths path).mpr ⟨path, among, (Path.same_iff path path).mpr rfl⟩
  rw [Path.same_iff] at same
  rwa [← distinct kept (mem_of_mem_inOrder present) path among same]

/-- Of paths with different components, a list in order is settled by which they are. -/
theorem inOrder_eq {paths others : List Path}
    (distinct : ∀ a ∈ paths, ∀ b ∈ paths, a.components = b.components → a = b)
    (alike : ∀ path, path ∈ paths ↔ path ∈ others) : inOrder paths = inOrder others := by
  have alsoDistinct : ∀ a ∈ others, ∀ b ∈ others, a.components = b.components → a = b :=
    fun a first b second => distinct a ((alike a).mpr first) b ((alike b).mpr second)
  refine (pairwise_precedes_inOrder paths).eq_of_mem_iff (pairwise_precedes_inOrder others) ?_
  intro path
  rw [mem_inOrder_iff distinct, mem_inOrder_iff alsoDistinct, alike]

/-- A list in order is settled, by components, by which these are. -/
theorem components_inOrder_eq {paths others : List Path}
    (alike : ∀ path, path ∈ paths ↔ path ∈ others) :
    (inOrder paths).map Path.components = (inOrder others).map Path.components := by
  let keys (path : Path) := path.components.map Path.Component.key
  have sorted (paths : List Path) : ((inOrder paths).map keys).Pairwise (· < ·) :=
    List.pairwise_map.mpr (pairwise_precedes_inOrder paths)
  have among (paths : List Path) :
      ∀ key, key ∈ (inOrder paths).map keys ↔ key ∈ paths.map keys := by
    intro key
    rw [List.mem_map, List.mem_map]
    constructor
    · rintro ⟨kept, present, rfl⟩
      exact ⟨kept, mem_of_mem_inOrder present, rfl⟩
    · rintro ⟨path, present, rfl⟩
      obtain ⟨kept, here, same⟩ :=
        (exists_inOrder_iff paths path).mpr ⟨path, present, (Path.same_iff path path).mpr rfl⟩
      exact ⟨kept, here, congrArg (List.map Path.Component.key) ((Path.same_iff ..).mp same)⟩
  have same : (inOrder paths).map keys = (inOrder others).map keys :=
    (sorted paths).eq_of_mem_iff (sorted others) fun key => by
      simp only [among, List.mem_map, alike]
  refine Path.Component.key_injective.list_map.list_map ?_
  rw [List.map_map, List.map_map]
  exact same

/-! ## Documents that are found -/

/-- A path of a file that is reached from one of those to look at: it leads there by names, and
every directory on the way can be listed. -/
def Reached (disk : Disk) (tops : List Path) (path : Path) : Prop :=
  ∃ top ∈ tops, ∃ route ∈ disk.route? top, ∃ below : Route, path = pathBelow top below ∧
    (∀ depth < below.length, disk.isListable (route ++ below.take depth) = true) ∧
    ∃ content access, disk.entry? (route ++ below) = some (.file content access)

/-- What a listing is to have: a file that is reached, that has the name of a document, and that no
pattern leaves out. -/
structure Belongs (disk : Disk) (root : Path) (paths : List Path) (patterns : List String)
    (path : Path) : Prop where
  reached : Reached disk (tops root paths) path
  named : ∃ name, path.fileName? = some name ∧ Document.extension.toList <:+ name.toList
  kept : ∀ pattern ∈ patterns, ¬ Exclusions.LeavesOut root path pattern

theorem reached_iff {disk : Disk} {tops : List Path} {path : Path} :
    Reached disk tops path ↔ ∃ top ∈ tops, Reached disk [top] path := by
  simp [Reached]

theorem isDocument_iff (path : Path) : path.isDocument = true ↔
    ∃ name, path.fileName? = some name ∧ Document.extension.toList <:+ name.toList := by
  rw [Path.isDocument]
  cases path.fileName? <;> simp

theorem isFile_iff (entry : Entry) :
    isFile entry = true ↔ ∃ content access, entry = .file content access := by
  cases entry <;> simp [isFile]

theorem mem_files_under_iff {disk : Disk} (tree : disk.IsTree) (keep : Path → Bool)
    (top path : Path) : path ∈ (under disk keep top).files ↔
      Reached disk [top] path ∧ path.isDocument = true ∧ keep path = true := by
  simp only [Reached, List.mem_singleton, exists_eq_left]
  rw [under, Disk.route?]
  rcases disk.find top with _ | ⟨route, _⟩ | _
  · simp
  · rw [List.mem_filterMap]
    constructor
    · rintro ⟨⟨below, entry⟩, met, taken⟩
      obtain ⟨here, reached⟩ := (tree.mem_walk_iff ..).mp met
      dsimp only at taken
      split_ifs at taken with wanted
      obtain rfl := Option.some.inj taken
      simp only [Bool.and_eq_true, isFile_iff] at wanted
      obtain ⟨⟨⟨content, access, rfl⟩, document⟩, kept⟩ := wanted
      exact ⟨⟨route, rfl, below, rfl, (Disk.isReached_iff ..).mp reached, content, access, here⟩,
        document, kept⟩
    · rintro ⟨⟨_, ⟨⟩, below, rfl, reached, content, access, here⟩, document, kept⟩
      refine ⟨(below, .file content access), ?_, by simp [isFile, document, kept]⟩
      exact (tree.mem_walk_iff ..).mpr ⟨here, (Disk.isReached_iff ..).mpr reached⟩
  · simp

/-- A listing has the paths that belong to it, in order. -/
theorem exists_scan {disk : Disk} (tree : disk.IsTree) (root : Path) (paths : List Path)
    {patterns : List String} (readable : Exclusions.Readable patterns) :
    ∃ listing found, scan disk root paths patterns = .ok listing ∧ listing.files = inOrder found ∧
      ∀ path, path ∈ found ↔ Belongs disk root paths patterns path := by
  obtain ⟨exclusions, read⟩ := Exclusions.exists_ofPatterns root readable
  refine ⟨_, _, scan_eq_ok_iff.mpr ⟨exclusions, read, rfl⟩, rfl, fun path => ?_⟩
  have kept : (!exclusions.excludes root path) = true ↔
      ∀ pattern ∈ patterns, ¬ Exclusions.LeavesOut root path pattern := by
    rw [Bool.not_eq_true', ← Bool.not_eq_true, Exclusions.excludes_ofPatterns read]
    simp
  simp only [List.mem_flatMap, List.mem_map, exists_exists_and_eq_and, mem_files_under_iff tree,
    kept, isDocument_iff]
  constructor
  · rintro ⟨top, among, reached, named, kept⟩
    exact ⟨reached_iff.mpr ⟨top, among, reached⟩, named, kept⟩
  · rintro ⟨reached, named, kept⟩
    obtain ⟨top, among, reached⟩ := reached_iff.mp reached
    exact ⟨top, among, reached, named, kept⟩

/-! ## Spellings of what is reached -/

/-- Paths that are spelled plainly, and so is the root unless all of them are relative to it. -/
def SpelledPlainly (root : Path) (paths : List Path) : Prop :=
  (∀ path ∈ paths, path.IsPlain) ∧ (root.IsPlain ∨ ∀ path ∈ paths, path.isAbsolute = false)

instance (root : Path) (paths : List Path) : Decidable (SpelledPlainly root paths) :=
  inferInstanceAs (Decidable ((∀ path ∈ paths, path.IsPlain) ∧
    (root.IsPlain ∨ ∀ path ∈ paths, path.isAbsolute = false)))

/-- Paths to look at that are spelled plainly go on from one base if they start alike. -/
theorem SpelledPlainly.exists_base {root : Path} {paths : List Path}
    (plain : SpelledPlainly root paths) :
    ∃ base : Bool → Path, ∀ top ∈ tops root paths, Path.Continues (base top.isAbsolute) top := by
  obtain ⟨each, plainRoot | relative⟩ := plain
  · refine ⟨Path.start, fun top among => ?_⟩
    rw [tops] at among
    split_ifs at among
    · rw [List.mem_singleton.mp among]
      exact plainRoot.continues
    · obtain ⟨path, given, rfl⟩ := List.mem_map.mp among
      cases kind : path.isAbsolute with
      | true =>
        rw [Path.join, if_pos kind]
        exact (each path given).continues
      | false =>
        have joined := Path.continues_join root (each path given) kind
        rw [joined.isAbsolute_eq]
        exact plainRoot.continues.trans joined
  · refine ⟨fun _ => root, fun top among => ?_⟩
    rw [tops] at among
    split_ifs at among
    · rw [List.mem_singleton.mp among]
      exact .refl root
    · obtain ⟨path, given, rfl⟩ := List.mem_map.mp among
      exact Path.continues_join root (each path given) (relative path given)

theorem front_pathBelow (top : Path) {below : Route} (named : ∀ name ∈ below, Path.IsName name) :
    (pathBelow top below).front = top.front ++ below := by
  simpa using view_pathBelow Path.front_child top named

theorem isName_of_present {disk : Disk} (tree : disk.IsTree) {route below : Route} {entry : Entry}
    (here : disk.entry? (route ++ below) = some entry) : ∀ name ∈ below, Path.IsName name := by
  intro name inside
  have nonempty : route ++ below ≠ [] := by
    rw [Ne, List.append_eq_nil_iff, not_and]
    exact fun _ => List.ne_nil_of_mem inside
  exact tree.named _ ((tree.entry?_eq_some_iff nonempty entry).mp here) name
    (List.mem_append_right _ inside)

/-- A path of a file does not end in a slash. -/
theorem getLast?_pieces_of_file {disk : Disk} {path : Path} {route : Route} {content : Content}
    {access : Access} (leads : route ∈ disk.route? path)
    (here : disk.entry? route = some (.file content access)) :
    path.pieces.getLast? ≠ some "" := by
  rw [Ne, Path.getLast?_pieces_eq_empty_iff]
  rintro (empty | slash)
  · obtain rfl : path = ⟨""⟩ := congrArg Path.mk empty
    refine Disk.entry?_file_ne_nil here ?_
    rw [Option.mem_def, Disk.route?_eq_resolved] at leads
    split_ifs at leads
    exact (Option.some.inj leads).symm
  · obtain ⟨entry, present, found⟩ := Disk.find_of_route? leads
    obtain rfl := Option.some.inj (present.symm.trans here)
    obtain ⟨_, _, after⟩ := bind_eq_ok_iff.mp found
    obtain ⟨target, _, closed⟩ := bind_eq_ok_iff.mp after
    split at closed
    next => simp [Disk.endsInSlash, slash] at closed
    next other => exact other _ _ _ (Except.ok.inj closed)

theorem Reached.continues {disk : Disk} (tree : disk.IsTree) {top path : Path}
    (reached : Reached disk [top] path) :
    Path.Continues top path ∧ path.pieces.getLast? ≠ some "" := by
  obtain ⟨_, single, route, leads, below, rfl, -, content, access, here⟩ := reached
  obtain rfl := List.mem_singleton.mp single
  have named := isName_of_present tree here
  refine ⟨⟨below, fun name inside => ?_, front_pathBelow _ named⟩, ?_⟩
  · obtain ⟨nonempty, noDot, -⟩ := named name inside
    exact (Path.isFiller_eq_false_iff name).mpr ⟨nonempty, noDot⟩
  · rcases List.eq_nil_or_concat below with rfl | ⟨above, name, rfl⟩
    · rw [List.append_nil] at here
      exact getLast?_pieces_of_file leads here
    · have last := named name (by simp)
      rw [pathBelow, List.concat_eq_append, List.foldl_append, List.foldl_cons, List.foldl_nil,
        Path.pieces_child _ last]
      simpa using last.1

/-- Documents reached from paths that are spelled plainly have one spelling each. -/
theorem Reached.eq_of_components {disk : Disk} (tree : disk.IsTree) {root : Path}
    {paths : List Path} (plain : SpelledPlainly root paths) {a b : Path}
    (first : Reached disk (tops root paths) a) (second : Reached disk (tops root paths) b)
    (same : a.components = b.components) : a = b := by
  obtain ⟨base, bases⟩ := plain.exists_base
  obtain ⟨top, among, first⟩ := reached_iff.mp first
  obtain ⟨other, alsoAmong, second⟩ := reached_iff.mp second
  obtain ⟨fromTop, solid⟩ := first.continues tree
  obtain ⟨fromOther, alsoSolid⟩ := second.continues tree
  have alike : top.isAbsolute = other.isAbsolute := by
    rw [← fromTop.isAbsolute_eq, ← fromOther.isAbsolute_eq, Bool.eq_iff_iff,
      Path.isAbsolute_iff_components, Path.isAbsolute_iff_components, same]
  have one := (bases top among).trans fromTop
  have two := (bases other alsoAmong).trans fromOther
  rw [alike] at one
  exact Path.eq_of_front solid alsoSolid (one.front_eq two same)

/-! ## Paths that make no difference -/

theorem isListable_iff_hollow (disk : Disk) (route : Route) : disk.isListable route = true ↔
    ((disk.entry? route).map Entry.hollow = some (.directory .full) ∨
      (disk.entry? route).map Entry.hollow = some (.directory .readOnly)) := by
  rw [Disk.isListable]
  rcases disk.entry? route with _ | _ | _ | _ | _ <;> simp [Entry.hollow]

theorem exists_file_iff_hollow (entry : Option Entry) :
    (∃ content access, entry = some (.file content access)) ↔
      ∃ access, entry.map Entry.hollow = some (.file (.text "") access) := by
  rcases entry with _ | _ | _ <;> simp [Entry.hollow]

/-- What is reached depends on the shape of a disk and on which paths are looked at. -/
theorem Reached.congr {disk again : Disk} (shape : disk.SameShape again) {tops others : List Path}
    (given : ∀ top, top ∈ others ↔ top ∈ tops) (path : Path) :
    Reached again others path ↔ Reached disk tops path := by
  have listable (route : Route) : again.isListable route = true ↔ disk.isListable route = true := by
    rw [isListable_iff_hollow, isListable_iff_hollow, shape]
  have file (route : Route) : (∃ content access, again.entry? route = some (.file content access)) ↔
      ∃ content access, disk.entry? route = some (.file content access) := by
    rw [exists_file_iff_hollow, exists_file_iff_hollow, shape]
  simp only [Reached, given, shape.route?, listable, file]

/-- A path that lies below another one by names. It may be the other one in another spelling, but
not a path to a file where the other one ends in a slash and so leads nowhere. -/
def Nested (disk : Disk) (outer inner : Path) : Prop :=
  ∃ names : Route, inner.components = outer.components ++ names.map .name ∧
    (names = [] → disk.has inner = true → disk.has outer = true)

theorem has_iff (disk : Disk) (path : Path) :
    disk.has path = true ↔ disk.route? path = some path.resolved := by
  rw [Disk.route?_eq_resolved]
  split_ifs with present <;> simp [present]

theorem Nested.refl (disk : Disk) (path : Path) : Nested disk path path :=
  ⟨[], by simp, fun _ => id⟩

theorem Nested.has_outer {disk : Disk} {base outer inner : Path} (first : Path.Continues base outer)
    (second : Path.Continues base inner) (nested : Nested disk outer inner)
    (present : disk.has inner = true) : disk.has outer = true := by
  obtain ⟨names, joined, same⟩ := nested
  cases names with
  | nil => exact same rfl present
  | cons name rest =>
    have solid : name ≠ "" := inner.ne_empty_of_mem_components (by simp [joined])
    exact Disk.has_of_has present ⟨name, List.mem_cons_self .., solid⟩
      (second.front_append first joined)

/-- What is reached from a path is reached from the one that it is nested in. -/
theorem Reached.of_nested {disk : Disk} (tree : disk.IsTree) {base outer inner path : Path}
    (first : Path.Continues base outer) (second : Path.Continues base inner)
    (nested : Nested disk outer inner) (reached : Reached disk [inner] path) :
    ∃ found, Reached disk [outer] found ∧ found.components = path.components := by
  obtain ⟨top, single, route, leads, below, rfl, listable, content, access, here⟩ := reached
  rw [List.mem_singleton.mp single] at leads ⊢
  obtain ⟨present, rfl⟩ : disk.has inner = true ∧ inner.resolved = route := by
    rw [Option.mem_def, Disk.route?_eq_resolved] at leads
    split_ifs at leads with present
    exact ⟨present, Option.some.inj leads⟩
  have outward := nested.has_outer first second present
  obtain ⟨names, joined, -⟩ := nested
  rw [resolved_of_components joined] at here listable
  have named := isName_of_present tree (List.append_assoc .. ▸ here)
  refine ⟨pathBelow outer (names ++ below), ⟨outer, List.mem_singleton_self _, outer.resolved,
    (has_iff disk outer).mp outward, names ++ below, rfl, fun depth bound => ?_, content,
    access, by rwa [← List.append_assoc]⟩, ?_⟩
  · -- Down to the inner path the way is the one that it takes itself, behind it that of the walk.
    rcases Nat.lt_or_ge depth names.length with inside | behind
    · rw [List.take_append_of_le_length inside.le]
      exact Disk.isListable_of_names present joined inside
    · rw [List.take_append, List.take_of_length_le behind, ← List.append_assoc]
      exact listable _ (by rw [List.length_append] at bound; omega)
  · rw [components_pathBelow outer named, components_pathBelow inner
      (fun name inside => named name (List.mem_append_right _ inside)), joined, List.map_append,
      List.append_assoc]

theorem Belongs.congr {disk again : Disk} {root : Path} {paths others : List Path}
    (patterns : List String) {path : Path}
    (reached : Reached again (tops root others) path ↔ Reached disk (tops root paths) path) :
    Belongs again root others patterns path ↔ Belongs disk root paths patterns path :=
  ⟨fun belongs => ⟨reached.mp belongs.reached, belongs.named, belongs.kept⟩,
    fun belongs => ⟨reached.mpr belongs.reached, belongs.named, belongs.kept⟩⟩

/-- Two listings to which the same paths belong agree by components, and as they are spelled if
these paths have one spelling each. -/
theorem exists_scan_again {again : Disk} (tree : again.IsTree) {disk : Disk} {root : Path}
    {paths : List Path} {others found : List Path} {patterns : List String}
    (readable : Exclusions.Readable patterns)
    (members : ∀ path, path ∈ found ↔ Belongs disk root paths patterns path)
    (alike : ∀ path, Reached again (tops root others) path ↔ Reached disk (tops root paths) path) :
    ∃ second, scan again root others patterns = .ok second ∧
      second.files.map Path.components = (inOrder found).map Path.components ∧
      ((∀ a ∈ found, ∀ b ∈ found, a.components = b.components → a = b) →
        second.files = inOrder found) := by
  obtain ⟨second, refound, scanned, files, belong⟩ := exists_scan tree root others readable
  have same (path : Path) : path ∈ found ↔ path ∈ refound := by
    rw [members, belong, Belongs.congr patterns (alike path)]
  refine ⟨second, scanned, ?_⟩
  rw [files]
  exact ⟨(components_inOrder_eq same).symm, fun distinct => (inOrder_eq distinct same).symm⟩

theorem mem_tops_congr (root : Path) {paths others : List Path}
    (given : ∀ path, path ∈ others ↔ path ∈ paths) (top : Path) :
    top ∈ tops root others ↔ top ∈ tops root paths := by
  have empty : others = [] ↔ paths = [] := by
    simp only [List.eq_nil_iff_forall_not_mem, given]
  simp only [tops, List.isEmpty_iff, empty]
  split_ifs
  · rfl
  · simp only [List.mem_map, given]

theorem SpelledPlainly.exists_common_base {root : Path} {paths : List Path}
    (plain : SpelledPlainly root paths) {disk : Disk} {outer inner : Path}
    (first : outer ∈ tops root paths) (second : inner ∈ tops root paths)
    (nested : Nested disk outer inner) :
    ∃ base, Path.Continues base outer ∧ Path.Continues base inner := by
  obtain ⟨base, bases⟩ := plain.exists_base
  obtain ⟨names, joined, -⟩ := nested
  have alike : inner.isAbsolute = outer.isAbsolute := by
    rw [Bool.eq_iff_iff, Path.isAbsolute_iff_components, Path.isAbsolute_iff_components, joined]
    cases outer.components with
    | nil => cases names <;> simp
    | cons => simp
  exact ⟨base outer.isAbsolute, bases outer first, alike ▸ bases inner second⟩

/-- Among paths that are spelled plainly, one that is nested in another adds nothing. -/
theorem Reached.congr_of_nested {disk : Disk} (tree : disk.IsTree) {root : Path}
    {paths others : List Path} (plain : SpelledPlainly root others)
    (more : tops root paths ⊆ tops root others)
    (nested : ∀ inner ∈ tops root others, ∃ outer ∈ tops root paths, Nested disk outer inner)
    (path : Path) : Reached disk (tops root others) path ↔ Reached disk (tops root paths) path := by
  constructor
  · intro reached
    obtain ⟨inner, among, inside⟩ := reached_iff.mp reached
    obtain ⟨outer, present, below⟩ := nested inner among
    obtain ⟨base, first, second⟩ := plain.exists_common_base (more present) among below
    obtain ⟨found, again, same⟩ := inside.of_nested tree first second below
    -- What the outer path leads to has the same components, and plain paths are told by these.
    have outward : Reached disk (tops root others) found :=
      reached_iff.mpr ⟨outer, more present, again⟩
    rw [← outward.eq_of_components tree plain reached same]
    exact reached_iff.mpr ⟨outer, present, again⟩
  · intro reached
    obtain ⟨top, among, reached⟩ := reached_iff.mp reached
    exact reached_iff.mpr ⟨top, more among, reached⟩

end Listing

open Listing (scan Reached Belongs SpelledPlainly Nested tops) in
/-- A listing is exact. Of every file tree, with patterns that can be read, it has the documents
that belong to it, in strict order by components; by components always, and as they are spelled if
the paths are spelled plainly. So neither the order in which the paths are given and the entries of
a directory are met makes a difference, nor that a path is given twice, nor that one is nested in
another one. -/
theorem listing_exact {disk : Disk} (tree : disk.IsTree) (root : Path) (paths : List Path)
    {patterns : List String} (readable : Exclusions.Readable patterns) :
    ∃ listing, scan disk root paths patterns = .ok listing ∧
      listing.files.Pairwise Path.Precedes ∧
      (∀ path : Path, (∃ listed ∈ listing.files, listed.same path = true) ↔
        ∃ found, Belongs disk root paths patterns found ∧ found.same path = true) ∧
      (SpelledPlainly root paths →
        ∀ path, path ∈ listing.files ↔ Belongs disk root paths patterns path) ∧
      (∀ again others, again.IsTree → disk.SameShape again →
        (∀ path, path ∈ others ↔ path ∈ paths) →
        ∃ second, scan again root others patterns = .ok second ∧
          second.files.map Path.components = listing.files.map Path.components ∧
          (SpelledPlainly root paths → second.files = listing.files)) ∧
      ∀ others, SpelledPlainly root others → tops root paths ⊆ tops root others →
        (∀ inner ∈ tops root others, inner ∉ tops root paths →
          ∃ outer ∈ tops root paths, Nested disk outer inner) →
        ∃ second, scan disk root others patterns = .ok second ∧ second.files = listing.files := by
  obtain ⟨listing, found, scanned, files, members⟩ := Listing.exists_scan tree root paths readable
  have reached {path : Path} (among : path ∈ found) : Reached disk (tops root paths) path :=
    ((members path).mp among).reached
  have distinct (plain : SpelledPlainly root paths) :
      ∀ a ∈ found, ∀ b ∈ found, a.components = b.components → a = b := fun a first b second =>
    (reached first).eq_of_components tree plain (reached second)
  refine ⟨listing, scanned, ?_, ?_, ?_, ?_, ?_⟩
  · rw [files]
    exact Listing.pairwise_precedes_inOrder found
  · intro path
    simp only [files, Listing.exists_inOrder_iff, members]
  · intro plain path
    rw [files, Listing.mem_inOrder_iff (distinct plain), members]
  · intro again others alsoTree shape given
    obtain ⟨second, rescanned, components, spelled⟩ := Listing.exists_scan_again alsoTree readable
      members (Reached.congr shape (Listing.mem_tops_congr root given))
    rw [files]
    exact ⟨second, rescanned, components, fun plain => spelled (distinct plain)⟩
  · intro others plain more nested
    have inside : ∀ inner ∈ tops root others,
        ∃ outer ∈ tops root paths, Nested disk outer inner := by
      intro inner among
      by_cases given : inner ∈ tops root paths
      · exact ⟨inner, given, .refl disk inner⟩
      · exact nested inner among given
    have alike := Reached.congr_of_nested tree plain more inside
    obtain ⟨second, rescanned, -, spelled⟩ :=
      Listing.exists_scan_again tree readable members alike
    refine ⟨second, rescanned, files ▸ spelled fun a first b second => ?_⟩
    exact ((alike a).mpr (reached first)).eq_of_components tree plain
      ((alike b).mpr (reached second))

namespace Listing.Sample

/-- A project whose entries are met in no order, with a directory that cannot be listed. -/
def project : Disk where
  entries :=
    [(["app", "b.ast.json"], .file (.text "\x7b\x7d") .full), (["app"], .directory .full),
      (["app", "old", "c.ast.json"], .file (.text "\x7b\x7d") .full),
      (["app", "shut", "d.ast.json"], .file (.text "\x7b\x7d") .full),
      (["app", "a.ast.json"], .file (.text "\x7b\x7d") .readOnly),
      (["app", "old"], .directory .readOnly), (["app", "shut"], .directory .none)]

/-- A path and a glob to be left out. -/
def ignored : List String := ["app/old", "**/b.*"]

/-- What the two leave out. -/
def exclusions : Exclusions where
  below := [⟨"/app/old"⟩]
  globs := [⟨[.anyDirectories, .char 'b', .char '.', .anySequence]⟩]

theorem scan_project :
    scan project ⟨"/"⟩ [⟨"app"⟩] ignored = .ok ⟨[⟨"/app/a.ast.json"⟩], 1⟩ := by
  have found : under project (fun path => !exclusions.excludes ⟨"/"⟩ path) ⟨"/app"⟩ =
      ⟨[⟨"/app/a.ast.json"⟩], 1⟩ := by
    decide +kernel
  have looked : tops ⟨"/"⟩ [⟨"app"⟩] = [⟨"/app"⟩] := by decide +kernel
  refine scan_eq_ok_iff.mpr ⟨exclusions, rfl, ?_⟩
  rw [looked, List.map_singleton, found]
  simp [inOrder, dropRepeated]

end Listing.Sample

open Listing (scan Belongs SpelledPlainly Nested tops) in
open Listing.Sample (project ignored) in
/-- The sample project has one document that is listed, and paths given twice or nested in others do
not change that. -/
theorem project_listing_exact :
    project.IsTree ∧ Exclusions.Readable ignored ∧ SpelledPlainly ⟨"/"⟩ [⟨"app"⟩] ∧
    scan project ⟨"/"⟩ [⟨"app"⟩] ignored = .ok ⟨[⟨"/app/a.ast.json"⟩], 1⟩ ∧
    (∀ path, path = ⟨"/app/a.ast.json"⟩ ↔ Belongs project ⟨"/"⟩ [⟨"app"⟩] ignored path) ∧
    ∃ second, scan project ⟨"/"⟩ [⟨"/app/old"⟩, ⟨"app"⟩, ⟨"app/a.ast.json"⟩, ⟨"app"⟩] ignored =
      .ok second ∧ second.files = [⟨"/app/a.ast.json"⟩] := by
  have tree : project.IsTree := ⟨by decide +kernel, by decide +kernel⟩
  have readable : Exclusions.Readable ignored := by
    intro pattern among wild
    obtain rfl | rfl : pattern = "app/old" ∨ pattern = "**/b.*" := by simpa [ignored] using among
    · exact absurd wild (by decide +kernel)
    · exact ⟨_, rfl⟩
  have plain : SpelledPlainly ⟨"/"⟩ [⟨"app"⟩] := by decide +kernel
  obtain ⟨listing, scanned, -, -, listed, -, more⟩ :=
    listing_exact tree ⟨"/"⟩ [⟨"app"⟩] readable
  obtain rfl := Except.ok.inj (Listing.Sample.scan_project.symm.trans scanned)
  refine ⟨tree, readable, plain, scanned, fun path => ?_, ?_⟩
  · rw [← listed plain path, List.mem_singleton]
  · have looked : tops ⟨"/"⟩ [⟨"/app/old"⟩, ⟨"app"⟩, ⟨"app/a.ast.json"⟩, ⟨"app"⟩] =
        [⟨"/app/old"⟩, ⟨"/app"⟩, ⟨"/app/a.ast.json"⟩, ⟨"/app"⟩] := by
      decide +kernel
    have given : (⟨"/app"⟩ : Path) ∈ tops ⟨"/"⟩ [⟨"app"⟩] := by decide +kernel
    refine more _ (by decide +kernel) (by decide +kernel) fun inner among other => ?_
    refine ⟨⟨"/app"⟩, given, ?_⟩
    rw [looked] at among
    simp only [List.mem_cons, List.not_mem_nil, or_false] at among
    obtain rfl | rfl | rfl | rfl := among
    · exact ⟨["old"], by decide +kernel, by simp⟩
    · exact absurd given other
    · exact ⟨["a.ast.json"], by decide +kernel, by simp⟩
    · exact absurd given other

namespace Listing.Sample

/-- A project that lies below a directory, with one document. -/
def inner : Disk where
  entries :=
    [(["r"], .directory .full), (["r", "p"], .directory .full),
      (["r", "p", "app"], .directory .full),
      (["r", "p", "app", "a.ast.json"], .file (.text "\x7b\x7d") .full)]

/-- A glob with a dot, to be left out. -/
def dotted : Exclusions where
  globs := [⟨"/r/./p/app/".toList.map .char ++ [.anySequence]⟩]

end Listing.Sample

open Listing (scan SpelledPlainly Nested inOrder dropRepeated tops under) in
open Listing.Sample (inner dotted) in
/-- A path that is nested in a listed one may change the listing. Where the root is spelled with a
dot, the document is left out by the one spelling and listed by the other. Where the listed path
ends in a slash, it does not lead to the document. -/
theorem nested_path_changes_listing :
    inner.IsTree ∧
    (Exclusions.Readable ["/r/./p/app/*"] ∧
      (∀ path ∈ ([⟨"app"⟩, ⟨"/r/p/app"⟩] : List Path), path.IsPlain) ∧
      Nested inner ⟨"/r/./p/app"⟩ ⟨"/r/p/app"⟩ ∧
      scan inner ⟨"/r/./p"⟩ [⟨"app"⟩] ["/r/./p/app/*"] = .ok ⟨[], 0⟩ ∧
      scan inner ⟨"/r/./p"⟩ [⟨"app"⟩, ⟨"/r/p/app"⟩] ["/r/./p/app/*"] =
        .ok ⟨[⟨"/r/p/app/a.ast.json"⟩], 0⟩) ∧
    SpelledPlainly ⟨"/r/p"⟩ [⟨"app/a.ast.json/"⟩, ⟨"app/a.ast.json"⟩] ∧
      Path.components ⟨"/r/p/app/a.ast.json"⟩ = Path.components ⟨"/r/p/app/a.ast.json/"⟩ ∧
      scan inner ⟨"/r/p"⟩ [⟨"app/a.ast.json/"⟩] [] = .ok ⟨[], 1⟩ ∧
      scan inner ⟨"/r/p"⟩ [⟨"app/a.ast.json/"⟩, ⟨"app/a.ast.json"⟩] [] =
        .ok ⟨[⟨"/r/p/app/a.ast.json"⟩], 1⟩ := by
  have tree : inner.IsTree := ⟨by decide +kernel, by decide +kernel⟩
  have readable : Exclusions.Readable ["/r/./p/app/*"] := by
    intro pattern among _
    obtain rfl := List.mem_singleton.mp among
    exact ⟨_, rfl⟩
  have spelled : (tops ⟨"/r/./p"⟩ [⟨"app"⟩, ⟨"/r/p/app"⟩]).map
      (under inner fun path => !dotted.excludes ⟨"/r/./p"⟩ path) =
        [⟨[], 0⟩, ⟨[⟨"/r/p/app/a.ast.json"⟩], 0⟩] := by
    decide +kernel
  have closed : (tops ⟨"/r/p"⟩ [⟨"app/a.ast.json/"⟩, ⟨"app/a.ast.json"⟩]).map
      (under inner fun path => !({} : Exclusions).excludes ⟨"/r/p"⟩ path) =
        [⟨[], 1⟩, ⟨[⟨"/r/p/app/a.ast.json"⟩], 0⟩] := by
    decide +kernel
  refine ⟨tree, ⟨readable, by decide +kernel, ⟨[], by decide +kernel, fun _ _ => by decide +kernel⟩,
    ?_, ?_⟩, by decide +kernel, by decide +kernel, ?_, ?_⟩
  · have first : (tops ⟨"/r/./p"⟩ [⟨"app"⟩]).map _ = _ := congrArg (List.take 1) spelled
    refine Listing.scan_eq_ok_iff.mpr ⟨dotted, rfl, ?_⟩
    rw [first]
    simp [inOrder, dropRepeated]
  · refine Listing.scan_eq_ok_iff.mpr ⟨dotted, rfl, ?_⟩
    rw [spelled]
    simp [inOrder, dropRepeated]
  · have first : (tops ⟨"/r/p"⟩ [⟨"app/a.ast.json/"⟩]).map _ = _ := congrArg (List.take 1) closed
    refine Listing.scan_eq_ok_iff.mpr ⟨{}, rfl, ?_⟩
    rw [first]
    simp [inOrder, dropRepeated]
  · refine Listing.scan_eq_ok_iff.mpr ⟨{}, rfl, ?_⟩
    rw [closed]
    simp [inOrder, dropRepeated]

end TemplateLint
