import Mathlib
import TemplateLint.Proofs.Resolution
import TemplateLint.Proofs.Runs
import TemplateLint.Proofs.StableOrder

/-! # Documents that are visited once

A listing leaves out the paths that repeat the components of another one. That tells apart all paths
that lead to different files, but not the other way round: a `..` may lead to a file that is listed
under a shorter path too. The paths of a listing lead to different files exactly if no two of them
resolve alike, and this holds whenever every path to look at that lies below another one is spelled
as the other one with names behind it.
-/

namespace TemplateLint

namespace Path

/-! ## The order of paths -/

/-- What the order of components goes by. -/
def Component.key (component : Component) : ℕ ×ₗ String := toLex (component.rank, component.text)

theorem Component.key_injective : Function.Injective Component.key := by
  intro a b same
  obtain ⟨rank, text⟩ := Prod.mk.inj (toLex.injective same)
  cases a <;> cases b <;> simp_all [Component.rank, Component.text]

theorem Component.le_iff (a b : Component) : a.le b = true ↔ a.key ≤ b.key := by
  simp [Component.le, Component.key, Prod.Lex.le_iff]

theorem leComponents_iff (first second : List Component) :
    leComponents first second = true ↔
      first.map Component.key ≤ second.map Component.key := by
  rw [← not_lt]
  induction first generalizing second with
  | nil => simp [leComponents]
  | cons a as ih =>
    cases second with
    | nil => simp [leComponents]
    | cons b bs =>
      rw [leComponents, List.map_cons, List.map_cons, List.cons_lt_cons_iff, not_or, not_lt]
      split_ifs with same
      · simp [same, ih]
      · rw [Component.le_iff, and_iff_left]
        exact fun both => same (Component.key_injective both.1.symm)

theorem le_iff (a b : Path) :
    a.le b = true ↔ a.components.map Component.key ≤ b.components.map Component.key :=
  leComponents_iff ..

theorem same_iff (a b : Path) : a.same b = true ↔ a.components = b.components := by
  rw [same, beq_iff_eq]

/-- Paths that come before each other have the same components. -/
theorem same_of_le_of_le {a b : Path} (first : a.le b = true) (second : b.le a = true) :
    a.same b = true := by
  rw [same_iff]
  exact Component.key_injective.list_map (le_antisymm ((le_iff a b).mp first) ((le_iff b a).mp second))

theorem pairwise_mergeSort_le (paths : List Path) :
    (paths.mergeSort Path.le).Pairwise fun a b => a.le b = true :=
  (stablySorted_mergeSort le_iff paths).ordered.imp (le_iff _ _).mpr

end Path

namespace Listing

/-! ## Leaving out repetitions -/

/-- A path is put before the others, in place of the first one if that has the same components. -/
theorem dropRepeated_cons (path : Path) (rest : List Path) :
    (dropRepeated (path :: rest) = path :: dropRepeated rest ∧
        ∀ next ∈ (dropRepeated rest).head?, path.same next = false) ∨
      ∃ next others, dropRepeated rest = next :: others ∧ path.same next = true ∧
        dropRepeated (path :: rest) = path :: others := by
  rw [dropRepeated]
  cases kept : dropRepeated rest with
  | nil => exact .inl ⟨rfl, by simp⟩
  | cons next others =>
    dsimp only
    split_ifs with repeated
    · exact .inr ⟨next, others, rfl, repeated, rfl⟩
    · exact .inl ⟨rfl, by simpa using repeated⟩

theorem dropRepeated_sublist (paths : List Path) : (dropRepeated paths).Sublist paths := by
  induction paths with
  | nil => exact .refl []
  | cons path rest ih =>
    obtain ⟨all, -⟩ | ⟨next, others, kept, -, fewer⟩ := dropRepeated_cons path rest
    · rw [all]
      exact ih.cons_cons path
    · rw [kept] at ih
      rw [fewer]
      exact ((List.sublist_cons_self next others).trans ih).cons_cons path

/-- In a list in order, equal paths stand side by side, so none is left. -/
theorem pairwise_dropRepeated {paths : List Path}
    (sorted : paths.Pairwise fun a b => a.le b = true) :
    (dropRepeated paths).Pairwise fun a b => a.same b = false := by
  induction paths with
  | nil => exact .nil
  | cons path rest ih =>
    obtain ⟨before, sorted⟩ := List.pairwise_cons.mp sorted
    have distinct := ih sorted
    have sub := dropRepeated_sublist rest
    obtain ⟨all, unlike⟩ | ⟨next, others, kept, repeated, fewer⟩ := dropRepeated_cons path rest
    · rw [all]
      refine List.pairwise_cons.mpr ⟨fun other among => ?_, distinct⟩
      obtain ⟨next, others, kept⟩ := List.exists_cons_of_ne_nil (List.ne_nil_of_mem among)
      rw [kept] at sub among unlike
      have apart : path.same next = false := unlike next rfl
      -- What comes behind the next path and equals this one would put the next one before it.
      rw [← Bool.not_eq_true]
      intro alike
      have back : next.le path = true := by
        rcases List.mem_cons.mp among with rfl | behind
        · rw [alike] at apart
          cases apart
        · have le := (List.pairwise_cons.mp (sorted.sublist sub)).1 other behind
          rwa [Path.le_iff, ← (Path.same_iff ..).mp alike, ← Path.le_iff] at le
      rw [Path.same_of_le_of_le (before next (sub.mem (List.mem_cons_self ..))) back] at apart
      cases apart
    · rw [kept] at distinct
      obtain ⟨apart, others⟩ := List.pairwise_cons.mp distinct
      rw [fewer]
      refine List.pairwise_cons.mpr ⟨fun other among => ?_, others⟩
      rw [← apart other among, Bool.eq_iff_iff, Path.same_iff, Path.same_iff,
        (Path.same_iff ..).mp repeated]

/-- The first path of a list in order is kept, and of the others those that differ from it. -/
theorem mem_dropRepeated_cons {first : Path} {rest : List Path}
    (sorted : (first :: rest).Pairwise fun a b => a.le b = true) (path : Path) :
    path ∈ dropRepeated (first :: rest) ↔
      path = first ∨ path ∈ dropRepeated rest ∧ first.same path = false := by
  have distinct := pairwise_dropRepeated sorted
  obtain ⟨all, -⟩ | ⟨next, others, kept, repeated, fewer⟩ := dropRepeated_cons first rest
  · rw [all] at distinct ⊢
    rw [List.mem_cons]
    refine or_congr_right (iff_self_and.mpr fun among => ?_)
    exact (List.pairwise_cons.mp distinct).1 path among
  · rw [fewer] at distinct ⊢
    rw [kept, List.mem_cons, List.mem_cons]
    refine or_congr_right ⟨fun among => ?_, ?_⟩
    · exact ⟨.inr among, (List.pairwise_cons.mp distinct).1 path among⟩
    · rintro ⟨rfl | among, unlike⟩
      · rw [repeated] at unlike
        cases unlike
      · exact among

/-- In a list in order, the first of equal paths is kept. -/
theorem mem_dropRepeated_iff {paths : List Path}
    (sorted : paths.Pairwise fun a b => a.le b = true) (path : Path) :
    path ∈ dropRepeated paths ↔ (paths.filter fun other => other.same path).head? = some path := by
  induction paths with
  | nil => simp [dropRepeated]
  | cons first rest ih =>
    rw [mem_dropRepeated_cons sorted, ih sorted.tail]
    cases alike : first.same path with
    | true => simp [alike, eq_comm]
    | false =>
      have differs : path ≠ first := by
        rintro rfl
        rw [(Path.same_iff path path).mpr rfl] at alike
        cases alike
      simp [alike, differs]

theorem pairwise_inOrder (paths : List Path) :
    (inOrder paths).Pairwise fun a b => a.same b = false :=
  pairwise_dropRepeated (Path.pairwise_mergeSort_le paths)

/-- Of equal paths the first one is listed, although they are sorted before. -/
theorem mem_inOrder_iff_first (paths : List Path) (path : Path) :
    path ∈ inOrder paths ↔ (paths.filter fun other => other.same path).head? = some path := by
  have ties := (stablySorted_mergeSort Path.le_iff paths).ties
  rw [inOrder, mem_dropRepeated_iff (Path.pairwise_mergeSort_le paths), ties.filter_eq]
  intro other
  exact (Path.same_iff other path).trans Path.Component.key_injective.list_map.eq_iff.symm

theorem mem_of_mem_inOrder {paths : List Path} {path : Path} (kept : path ∈ inOrder paths) :
    path ∈ paths :=
  List.mem_mergeSort.mp ((dropRepeated_sublist _).mem kept)

/-- Every path is listed, or one with the same components is. -/
theorem exists_inOrder {paths : List Path} {path : Path} (present : path ∈ paths) :
    ∃ kept ∈ inOrder paths, kept.same path = true := by
  have among : path ∈ paths.filter fun other => other.same path :=
    List.mem_filter.mpr ⟨present, (Path.same_iff path path).mpr rfl⟩
  obtain ⟨kept, others, chosen⟩ := List.exists_cons_of_ne_nil (List.ne_nil_of_mem among)
  have first : kept ∈ paths.filter fun other => other.same path := by
    rw [chosen]
    exact List.mem_cons_self ..
  have alike : kept.same path = true := (List.mem_filter.mp first).2
  refine ⟨kept, (mem_inOrder_iff_first paths kept).mpr ?_, alike⟩
  have together : (fun other : Path => other.same kept) = fun other => other.same path := by
    funext other
    rw [Bool.eq_iff_iff, Path.same_iff, Path.same_iff, (Path.same_iff ..).mp alike]
  rw [together, chosen, List.head?_cons]

/-- A selection that keeps or drops equal paths together may be made before or after. -/
theorem mem_inOrder_filter_iff {keep : Path → Bool}
    (together : ∀ a b : Path, a.components = b.components → keep a = keep b) (paths : List Path)
    (path : Path) : path ∈ inOrder (paths.filter keep) ↔ path ∈ inOrder paths ∧ keep path = true := by
  have chosen : ((paths.filter keep).filter fun other => other.same path) =
      if keep path then paths.filter fun other => other.same path else [] := by
    rw [List.filter_filter]
    split_ifs with wanted
    · refine List.filter_congr fun other _ => ?_
      cases alike : other.same path with
      | true => rw [Bool.true_and, together other path ((Path.same_iff ..).mp alike), wanted]
      | false => rw [Bool.false_and]
    · refine List.filter_eq_nil_iff.mpr fun other _ => ?_
      rw [Bool.and_eq_true, Path.same_iff, not_and]
      exact fun alike => together other path alike ▸ wanted
  rw [mem_inOrder_iff_first, mem_inOrder_iff_first, chosen]
  split_ifs with wanted <;> simp [wanted]

/-! ## Listed paths -/

/-- A path that leads below one of those to look at, by names. -/
def Below (disk : Disk) (tops : List Path) (path : Path) : Prop :=
  ∃ top ∈ tops, disk.has top = true ∧ ∃ names : Route,
    path.components = top.components ++ names.map .name

/-- What a path gains with a name, it gains with each name of a route below it. -/
theorem view_pathBelow {α : Type} {view : Path → List α} {mark : String → α}
    (gains : ∀ (base : Path) {name : String}, Path.IsName name →
      view (base.child name) = view base ++ [mark name])
    (top : Path) {below : Route} (named : ∀ name ∈ below, Path.IsName name) :
    view (pathBelow top below) = view top ++ below.map mark := by
  rw [pathBelow]
  induction below generalizing top with
  | nil => simp
  | cons name rest ih =>
    obtain ⟨first, later⟩ := List.forall_mem_cons.mp named
    rw [List.foldl_cons, ih _ later, gains top first, List.append_assoc, List.singleton_append,
      List.map_cons]

theorem components_pathBelow (top : Path) {below : Route} (named : ∀ name ∈ below, Path.IsName name) :
    (pathBelow top below).components = top.components ++ below.map .name :=
  view_pathBelow Path.components_child top named

theorem mem_walk {disk : Disk} {top below : Route} {entry : Entry}
    (met : (below, entry) ∈ disk.walk top) : below = [] ∨ (top ++ below, entry) ∈ disk.entries := by
  rw [Disk.walk] at met
  split at met
  · cases met
  · rcases List.mem_cons.mp met with same | deeper
    · exact .inl (Prod.mk.inj same).1
    · obtain ⟨⟨route, other⟩, known, kept⟩ := List.mem_filterMap.mp deeper
      dsimp only at kept
      split_ifs at kept with reached
      obtain ⟨rfl, rfl⟩ := Prod.mk.inj (Option.some.inj kept)
      simp only [Bool.and_eq_true] at reached
      obtain ⟨behind, rfl⟩ := List.isPrefixOf_iff_prefix.mp reached.1.1
      exact .inr (by simpa using known)

theorem below_of_mem_under {disk : Disk} (named : disk.WellNamed) {keep : Path → Bool}
    {tops : List Path} {top path : Path} (among : top ∈ tops)
    (listed : path ∈ (under disk keep top).files) : Below disk tops path := by
  rw [under] at listed
  split at listed
  next route entry found =>
    obtain ⟨⟨below, met⟩, walked, kept⟩ := List.mem_filterMap.mp listed
    dsimp only at kept
    split_ifs at kept
    obtain rfl := Option.some.inj kept
    refine ⟨top, among, by rw [Disk.has, found], below, components_pathBelow top ?_⟩
    intro name inside
    rcases mem_walk walked with rfl | known
    · exact absurd inside List.not_mem_nil
    · exact named _ known name (List.mem_append_right _ inside)
  next => exact absurd listed List.not_mem_nil

theorem scan_eq_ok_iff {disk : Disk} {root : Path} {paths : List Path} {patterns : List String}
    {listing : Listing} : scan disk root paths patterns = .ok listing ↔
      ∃ exclusions, Exclusions.ofPatterns root patterns = .ok exclusions ∧
        listing = ⟨inOrder (((tops root paths).map
            (under disk fun path => !exclusions.excludes root path)).flatMap files),
          ((tops root paths).map (under disk fun path => !exclusions.excludes root path)).foldl
            (fun total listing => total + listing.skipped) 0⟩ := by
  rw [scan, bind_eq_ok_iff]
  refine exists_congr fun exclusions => and_congr_right fun _ => ?_
  exact ⟨fun same => (Except.ok.inj same).symm, fun same => congrArg Except.ok same.symm⟩

theorem below_of_scan {disk : Disk} (named : disk.WellNamed) {root : Path} {paths : List Path}
    {patterns : List String} {listing : Listing}
    (scanned : scan disk root paths patterns = .ok listing) :
    ∀ path ∈ listing.files, Below disk (tops root paths) path := by
  obtain ⟨exclusions, -, rfl⟩ := scan_eq_ok_iff.mp scanned
  intro path listed
  obtain ⟨_, inside, among⟩ := List.mem_flatMap.mp (mem_of_mem_inOrder listed)
  obtain ⟨top, present, rfl⟩ := List.mem_map.mp inside
  exact below_of_mem_under named present among

/-! ## Spelling -/

/-- Every path to look at that leads below another one is spelled as the other one with names behind
it. -/
def SpelledAlike (disk : Disk) (tops : List Path) : Prop :=
  ∀ a ∈ tops, ∀ b ∈ tops, disk.has a = true → disk.has b = true → ∀ names : Route,
    b.resolved = a.resolved ++ names → b.components = a.components ++ names.map .name

theorem resolved_of_components {top path : Path} {names : Route}
    (spelled : path.components = top.components ++ names.map .name) :
    path.resolved = top.resolved ++ names := by
  rw [Path.resolved, spelled, List.foldl_append, Path.foldl_follow_names, Path.resolved]

/-- Below paths that are spelled alike, to resolve alike is to be spelled alike. -/
theorem SpelledAlike.same {disk : Disk} {tops : List Path} (alike : SpelledAlike disk tops)
    {a b : Path} (first : Below disk tops a) (second : Below disk tops b)
    (resolved : a.resolved = b.resolved) : a.same b = true := by
  obtain ⟨top, among, present, names, spelled⟩ := first
  obtain ⟨other, alsoAmong, alsoPresent, others, alsoSpelled⟩ := second
  rw [resolved_of_components spelled, resolved_of_components alsoSpelled] at resolved
  rw [Path.same_iff, spelled, alsoSpelled]
  obtain ⟨between, here, rfl⟩ | ⟨between, here, rfl⟩ := List.append_eq_append_iff.mp resolved
  · rw [alike top among other alsoAmong present alsoPresent between here, List.map_append,
      List.append_assoc]
  · rw [alike other alsoAmong top among alsoPresent present between here, List.map_append,
      List.append_assoc]

theorem spelledAlike_singleton (disk : Disk) (top : Path) : SpelledAlike disk [top] := by
  intro a first b second _ _ names resolved
  obtain rfl := List.mem_singleton.mp first
  obtain rfl := List.mem_singleton.mp second
  rw [List.self_eq_append_right.mp resolved]
  simp

/-- Pieces without `..` that are components are names. -/
theorem filterMap_component?_of_parentless {pieces : List String} (parentless : ".." ∉ pieces) :
    pieces.filterMap Path.component? =
      (pieces.filter fun piece => !Path.isFiller piece).map .name := by
  induction pieces with
  | nil => rfl
  | cons piece pieces ih =>
    obtain ⟨other, later⟩ := not_or.mp (mt List.mem_cons.mpr parentless)
    by_cases filler : piece = "" ∨ piece = "."
    · simp [Path.component?, Path.isFiller, filler, ih later]
    · simp [Path.component?, Path.isFiller, filler, Ne.symm other, ih later]

/-- Absolute paths without `..` are the root with the names they resolve to. -/
theorem components_of_parentless {path : Path} (absolute : path.isAbsolute = true)
    (parentless : ".." ∉ path.pieces) :
    path.components = .root :: path.resolved.map .name := by
  obtain ⟨first, rest, cuts⟩ := path.exists_pieces
  rw [cuts] at parentless
  have components : path.components = .root :: (rest.filterMap Path.component?) := by
    rw [Path.components_eq, cuts, Path.componentsOf, if_pos absolute]
    rfl
  rw [filterMap_component?_of_parentless (mt (List.mem_cons_of_mem first) parentless)] at components
  rw [Path.resolved, components, List.foldl_cons, Path.foldl_follow_names]
  rfl

theorem spelledAlike_of_parentless (disk : Disk) {tops : List Path}
    (plain : ∀ top ∈ tops, top.isAbsolute = true ∧ ".." ∉ top.pieces) : SpelledAlike disk tops := by
  intro a first b second _ _ names resolved
  rw [components_of_parentless (plain a first).1 (plain a first).2,
    components_of_parentless (plain b second).1 (plain b second).2, resolved, List.map_append]
  rfl

theorem join_plain {base path : Path} (absolute : base.isAbsolute = true)
    (parentless : ".." ∉ base.pieces) (alsoParentless : ".." ∉ path.pieces) :
    (base.join path).isAbsolute = true ∧ ".." ∉ (base.join path).pieces := by
  cases relative : path.isAbsolute with
  | true =>
    rw [Path.join, if_pos relative]
    exact ⟨relative, alsoParentless⟩
  | false =>
    obtain ⟨empty, -⟩ | ⟨front, -, pieces, same, own⟩ := base.join_cases relative
    · simp [Path.isAbsolute, empty] at absolute
    · refine ⟨same.trans absolute, ?_⟩
      have front : ".." ∉ front := by
        rcases own with rfl | slash
        · exact parentless
        · exact fun inside => parentless (slash ▸ List.mem_append_left _ inside)
      rw [pieces, List.mem_append, not_or]
      exact ⟨front, alsoParentless⟩

theorem plain_tops {root : Path} {paths : List Path} (absolute : root.isAbsolute = true)
    (parentless : ".." ∉ root.pieces) (plain : ∀ path ∈ paths, ".." ∉ path.pieces) :
    ∀ top ∈ tops root paths, top.isAbsolute = true ∧ ".." ∉ top.pieces := by
  intro top among
  rw [tops] at among
  split_ifs at among
  · rw [List.mem_singleton.mp among]
    exact ⟨absolute, parentless⟩
  · obtain ⟨path, present, rfl⟩ := List.mem_map.mp among
    exact join_plain absolute parentless (plain path present)

theorem exists_tops_eq_singleton (root : Path) {paths : List Path} (few : paths.length ≤ 1) :
    ∃ top, tops root paths = [top] := by
  rcases paths with _ | ⟨path, _ | _⟩
  · exact ⟨root, rfl⟩
  · exact ⟨root.join path, rfl⟩
  · simp at few

/-- No two paths lead to one entry. -/
def Separate (disk : Disk) (paths : List Path) : Prop :=
  paths.Pairwise fun a b => ¬ disk.SameFile a b

instance (disk : Disk) (paths : List Path) : Decidable (Separate disk paths) :=
  inferInstanceAs (Decidable (paths.Pairwise fun a b => ¬ disk.SameFile a b))

/-- Paths with different components lead to different entries exactly if no two of them do otherwise
than their components say. -/
theorem separate_iff (disk : Disk) {paths : List Path}
    (distinct : paths.Pairwise fun a b => a.same b = false) :
    Separate disk paths ↔ ∀ a ∈ paths, ∀ b ∈ paths, disk.SameFile a b → a.same b = true := by
  constructor
  · intro separate a first b second leads
    have symmetric : Std.Symm fun a b : Path => ¬ disk.SameFile a b :=
      ⟨fun a b apart same => apart same.symm⟩
    rcases eq_or_ne a b with rfl | other
    · exact (Path.same_iff a a).mpr rfl
    · exact absurd leads (List.Pairwise.forall separate first second other)
  · intro alike
    refine distinct.imp_of_mem fun {a b} first second apart leads => ?_
    rw [alike a first b second leads] at apart
    cases apart

theorem separate_of_scan {disk : Disk} (named : disk.WellNamed) {root : Path} {paths : List Path}
    {patterns : List String} {listing : Listing}
    (scanned : scan disk root paths patterns = .ok listing)
    (alike : SpelledAlike disk (tops root paths)) : Separate disk listing.files := by
  have below := below_of_scan named scanned
  obtain ⟨exclusions, -, rfl⟩ := scan_eq_ok_iff.mp scanned
  refine (separate_iff disk (pairwise_inOrder _)).mpr ?_
  intro a first b second leads
  exact alike.same (below a first) (below b second) ((disk.sameFile_iff a b).mp leads).2.2

end Listing

namespace Session

/-- The documents of a session are those of a listing. -/
theorem scan_of_prepare {disk : Disk} {cwd : Path} {selection : Selection} {session : Session}
    (prepared : prepare disk cwd selection = .ok session) :
    ∃ skipped, Listing.scan disk session.root (selection.paths.map cwd.join)
      session.settings.ignores = .ok ⟨session.documents, skipped⟩ := by
  rw [prepare] at prepared
  obtain ⟨loaded, -, rest⟩ := bind_eq_ok_iff.mp prepared
  obtain ⟨rule, -, rest⟩ := bind_eq_ok_iff.mp rest
  obtain ⟨listing, scanned, rest⟩ := bind_eq_ok_iff.mp rest
  obtain rfl := Except.ok.inj rest
  exact ⟨listing.skipped, mapError_eq_ok_iff.mp scanned⟩

/-- A run writes documents back in the order in which they are listed. -/
theorem Reaches.rewritten_sublist {session : Session} {rule : Rule} {disk : Disk} {state : State}
    (reaches : session.Reaches rule disk state) :
    state.rewritten.Sublist session.documents := by
  rw [(Reaches.frame reaches).documents, State.taken, State.rewritten, List.append_assoc]
  exact (List.filter_sublist.map Result.path).trans (List.sublist_append_left ..)

end Session

open Listing (Separate SpelledAlike tops under) in
/-- What a listing tells apart. No two of its paths have the same components, and every document
found has its components there. Two paths lead to one file if both lead somewhere and their
components resolve alike, so the listed paths lead to different files exactly if those that do
otherwise have the same components. They do if the paths to look at are spelled alike: a single one
is, and so are absolute ones without `..`. A run then writes no file back twice. -/
theorem visits_once_iff {disk : Disk} (named : disk.WellNamed) :
    (∀ root paths patterns listing, Listing.scan disk root paths patterns = .ok listing →
      (listing.files.Pairwise fun a b => a.same b = false) ∧
      (∃ exclusions, Exclusions.ofPatterns root patterns = .ok exclusions ∧
        ∀ top ∈ tops root paths,
          ∀ path ∈ (under disk (fun path => !exclusions.excludes root path) top).files,
            ∃ listed ∈ listing.files, listed.same path = true) ∧
      (Separate disk listing.files ↔ ∀ a ∈ listing.files, ∀ b ∈ listing.files,
        disk.has a = true → disk.has b = true → a.resolved = b.resolved → a.same b = true) ∧
      (SpelledAlike disk (tops root paths) → Separate disk listing.files) ∧
      (paths.length ≤ 1 → Separate disk listing.files) ∧
      (root.isAbsolute = true → ".." ∉ root.pieces → (∀ path ∈ paths, ".." ∉ path.pieces) →
        Separate disk listing.files)) ∧
    ∀ cwd selection session, Session.prepare disk cwd selection = .ok session →
      SpelledAlike disk (tops session.root (selection.paths.map cwd.join)) →
        ∀ rule state, session.Reaches rule disk state → Separate disk state.rewritten := by
  refine ⟨fun root paths patterns listing scanned => ?_, ?_⟩
  · have once : SpelledAlike disk (tops root paths) → Separate disk listing.files :=
      Listing.separate_of_scan named scanned
    obtain ⟨exclusions, read, rfl⟩ := Listing.scan_eq_ok_iff.mp scanned
    have distinct := Listing.pairwise_inOrder (((tops root paths).map
      (under disk fun path => !exclusions.excludes root path)).flatMap Listing.files)
    refine ⟨distinct, ⟨exclusions, read, fun top among path found => ?_⟩, ?_, once, ?_, ?_⟩
    · apply Listing.exists_inOrder
      exact List.mem_flatMap.mpr ⟨_, List.mem_map.mpr ⟨top, among, rfl⟩, found⟩
    · simpa only [disk.sameFile_iff, and_imp] using Listing.separate_iff disk distinct
    · intro few
      obtain ⟨top, single⟩ := Listing.exists_tops_eq_singleton root few
      exact once (single ▸ Listing.spelledAlike_singleton disk top)
    · intro absolute parentless plain
      exact once (Listing.spelledAlike_of_parentless disk
        (Listing.plain_tops absolute parentless plain))
  · intro cwd selection session prepared alike rule state reaches
    obtain ⟨skipped, scanned⟩ := Session.scan_of_prepare prepared
    exact (Listing.separate_of_scan named scanned alike).sublist
      (Session.Reaches.rewritten_sublist reaches)

namespace Listing.Sample

/-- A disk with one document. -/
def disk : Disk where
  entries :=
    [(["app"], .directory .full), (["app", "a.ast.json"], .file (.text "\x7b\x7d") .full)]

/-- The document under two paths. -/
def twice : List Path := [⟨"/app/../app/a.ast.json"⟩, ⟨"/app/a.ast.json"⟩]

theorem scan_detour :
    scan disk ⟨"/"⟩ [⟨"app/../app"⟩, ⟨"app"⟩] [] = .ok ⟨twice, 0⟩ := by
  have detour : under disk (fun path => !({} : Exclusions).excludes ⟨"/"⟩ path) ⟨"/app/../app"⟩ =
      ⟨[⟨"/app/../app/a.ast.json"⟩], 0⟩ := by
    decide +kernel
  have direct : under disk (fun path => !({} : Exclusions).excludes ⟨"/"⟩ path) ⟨"/app"⟩ =
      ⟨[⟨"/app/a.ast.json"⟩], 0⟩ := by
    decide +kernel
  have looked : tops ⟨"/"⟩ [⟨"app/../app"⟩, ⟨"app"⟩] = [⟨"/app/../app"⟩, ⟨"/app"⟩] := by
    decide +kernel
  -- Sorting is no structural recursion, so it is not left to the kernel.
  have sorted : twice.mergeSort Path.le = twice := List.mergeSort_of_pairwise (by decide +kernel)
  have distinct : dropRepeated twice = twice := by decide +kernel
  refine scan_eq_ok_iff.mpr ⟨{}, rfl, ?_⟩
  rw [looked, List.map_cons, List.map_singleton, detour, direct]
  exact congrArg (Listing.mk · 0) ((congrArg dropRepeated sorted).trans distinct).symm

end Listing.Sample

open Listing (Separate SpelledAlike tops Sample.disk Sample.twice) in
/-- With a detour the document is listed twice, so the paths to look at are not spelled alike;
without one it is listed once. -/
theorem detour_visits_twice :
    Sample.disk.WellNamed ∧
    Listing.scan Sample.disk ⟨"/"⟩ [⟨"app/../app"⟩, ⟨"app"⟩] [] = .ok ⟨Sample.twice, 0⟩ ∧
    ¬ Separate Sample.disk Sample.twice ∧
    ¬ SpelledAlike Sample.disk (tops ⟨"/"⟩ [⟨"app/../app"⟩, ⟨"app"⟩]) ∧
    ∃ listing, Listing.scan Sample.disk ⟨"/"⟩ [⟨"./app/"⟩, ⟨"app"⟩, ⟨"/app/a.ast.json"⟩] [] =
        .ok listing ∧ Separate Sample.disk listing.files := by
  have named : Sample.disk.WellNamed := by decide +kernel
  have repeated : ¬ Separate Sample.disk Sample.twice := by decide +kernel
  obtain ⟨listings, -⟩ := visits_once_iff named
  obtain ⟨-, -, -, alike, -⟩ := listings _ _ _ _ Listing.Sample.scan_detour
  refine ⟨named, Listing.Sample.scan_detour, repeated, mt alike repeated, _,
    Listing.scan_eq_ok_iff.mpr ⟨{}, rfl, rfl⟩, ?_⟩
  obtain ⟨-, -, -, -, -, plain⟩ := listings ⟨"/"⟩ [⟨"./app/"⟩, ⟨"app"⟩, ⟨"/app/a.ast.json"⟩] []
    _ (Listing.scan_eq_ok_iff.mpr ⟨{}, rfl, rfl⟩)
  exact plain (by decide) (by decide) (by decide)

end TemplateLint
