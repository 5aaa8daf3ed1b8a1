import Mathlib
import TemplateLint.Proofs.Coverage
import TemplateLint.Proofs.Matching
import TemplateLint.Proofs.Remainders

/-! # Patterns that are ignored

Settings are checked as if all patterns were globs, but a listing takes a pattern without `*` and
`?` for a path. For most patterns this is the same: a pattern that has no class either matches its
own text only, and the path that it then names is the one that it matches. A pattern whose only
wildcards are classes is the exception. It leaves out what lies below the path that is spelled with
the brackets, and not what it matches.
-/

namespace TemplateLint

/-! ## Patterns of settings -/

/-- All patterns of settings that are valid can be read. -/
theorem Settings.parse_of_validate {settings : Settings} (valid : settings.validate = .ok ()) :
    ∀ pattern ∈ settings.ignores, ∃ glob, Glob.parse pattern = .ok glob := by
  rw [validate] at valid
  obtain ⟨_, checked, -⟩ := bind_eq_ok_iff.mp valid
  generalize settings.ignores = patterns at checked ⊢
  induction patterns with
  | nil => exact fun _ among => absurd among List.not_mem_nil
  | cons pattern rest ih =>
    rw [List.forIn_cons] at checked
    obtain ⟨step, first, later⟩ := bind_eq_ok_iff.mp checked
    obtain ⟨glob, read, next⟩ := bind_eq_ok_iff.mp first
    obtain rfl := Except.ok.inj next
    exact List.forall_mem_cons.mpr ⟨⟨glob, mapError_eq_ok_iff.mp read⟩, ih later⟩

namespace Exclusions

/-- A pattern whose only wildcards are classes. -/
def IsBracketed (pattern : String) : Prop := isGlob pattern = false ∧ '[' ∈ pattern.toList

instance (pattern : String) : Decidable (IsBracketed pattern) :=
  inferInstanceAs (Decidable (isGlob pattern = false ∧ '[' ∈ pattern.toList))

/-- A pattern without any wildcards matches its own text only. -/
theorem eq_of_matches {pattern : String} (literal : isGlob pattern = false)
    (noClass : '[' ∉ pattern.toList) {glob : Glob} (read : Glob.parse pattern = .ok glob)
    {text : String} (found : Glob.Matches glob.tokens text.toList) : text = pattern := by
  simp only [isGlob, List.any_eq_false, Bool.or_eq_true, beq_iff_eq, not_or] at literal
  have noStar : '*' ∉ pattern.toList := fun inside => (literal '*' inside).1 rfl
  have noMark : '?' ∉ pattern.toList := fun inside => (literal '?' inside).2 rfl
  rw [Glob.parse_of_plain noStar noMark noClass] at read
  obtain rfl := Except.ok.inj read
  exact String.toList_inj.mp ((Glob.matches_chars_iff ..).mp found)

/-- A pattern leaves out what it matches below the root, unless its only wildcards are classes; then
it leaves out what lies below the path that it spells. -/
theorem leavesOut_iff {root path relative : Path}
    (stripped : path.stripPrefix? root = some relative) {pattern : String} {glob : Glob}
    (read : Glob.parse pattern = .ok glob)
    (found : Glob.Matches glob.tokens relative.spelling.toList) :
    LeavesOut root path pattern ↔
      ¬ IsBracketed pattern ∨ (root.join ⟨pattern⟩).components <+: path.components := by
  constructor
  · rintro (⟨-, inside⟩ | ⟨-, wild, -, -⟩)
    · exact .inr inside
    · exact .inl fun bracketed => by simp [bracketed.1] at wild
  · intro works
    cases wild : isGlob pattern with
    | true =>
      have accepted : glob.accepts (path.relativeTo root).spelling = true := by
        rw [Path.relativeTo, stripped]
        exact (Glob.accepts_iff ..).mpr found
      exact .matched glob wild read (.inl accepted)
    | false =>
      -- The pattern is the relative path itself, which leads back to the path below the root.
      refine .below wild (works.elim (fun plain => ?_) id)
      have noClass : '[' ∉ pattern.toList := fun inside => plain ⟨wild, inside⟩
      rw [← eq_of_matches wild noClass read found, Path.components_join_of_stripPrefix? stripped]

end Exclusions

namespace Listing

/-- What is kept on two conditions is chosen by the second from what is kept on the first. -/
theorem files_under_and (disk : Disk) (keep also : Path → Bool) (top : Path) :
    (under disk (fun path => keep path && also path) top).files =
      (under disk keep top).files.filter also := by
  rw [under, under]
  split
  · rw [List.filter_filterMap]
    refine List.filterMap_congr fun met _ => ?_
    simp only [← Bool.and_assoc, Bool.and_eq_true]
    split_ifs with both first first
    · rw [Option.filter_some, if_pos both.2]
    · exact absurd both.1 first
    · rw [Option.filter_some, if_neg fun second => both ⟨first, second⟩]
    · rfl
  · rfl

/-- A listing has no path that a pattern leaves out. -/
theorem kept_of_scan {disk : Disk} {root : Path} {paths : List Path} {patterns : List String}
    {listing : Listing} (scanned : scan disk root paths patterns = .ok listing) {path : Path}
    (listed : path ∈ listing.files) :
    ∀ pattern ∈ patterns, ¬ Exclusions.LeavesOut root path pattern := by
  obtain ⟨exclusions, read, rfl⟩ := scan_eq_ok_iff.mp scanned
  obtain ⟨_, inside, among⟩ := List.mem_flatMap.mp (mem_of_mem_inOrder listed)
  obtain ⟨top, -, rfl⟩ := List.mem_map.mp inside
  have chosen := files_under_and disk (fun _ => true) (fun path => !exclusions.excludes root path) top
  simp only [Bool.true_and] at chosen
  rw [chosen] at among
  have kept := (List.mem_filter.mp among).2
  rw [Bool.not_eq_true', ← Bool.not_eq_true, Exclusions.excludes_ofPatterns read] at kept
  exact fun pattern given out => kept ⟨pattern, given, out⟩

/-- A pattern without `*` and `?` takes out of a listing what lies below the path that it spells. -/
theorem mem_files_iff_of_literal {disk : Disk} {root : Path} {paths : List Path}
    {patterns : List String} {listing without : Listing} {pattern : String}
    (given : pattern ∈ patterns) (literal : Exclusions.isGlob pattern = false)
    (scanned : scan disk root paths patterns = .ok listing)
    (rescanned : scan disk root paths (patterns.filter (· ≠ pattern)) = .ok without)
    (path : Path) :
    path ∈ listing.files ↔
      path ∈ without.files ∧ ¬ (root.join ⟨pattern⟩).components <+: path.components := by
  obtain ⟨exclusions, read, rfl⟩ := scan_eq_ok_iff.mp scanned
  obtain ⟨fewer, reread, rfl⟩ := scan_eq_ok_iff.mp rescanned
  -- The pattern goes by components, so it leaves out equal paths together.
  have keeps : (fun path => !exclusions.excludes root path) = fun path =>
      !fewer.excludes root path && !path.startsWith (root.join ⟨pattern⟩) := by
    funext path
    rw [← Bool.not_or, Bool.not_inj_iff, Bool.eq_iff_iff, Bool.or_eq_true,
      ← Exclusions.leavesOut_iff_of_literal literal]
    exact Exclusions.excludes_iff_without given read reread path
  have found : ((tops root paths).map (under disk fun path =>
        !exclusions.excludes root path)).flatMap files =
      (((tops root paths).map (under disk fun path =>
        !fewer.excludes root path)).flatMap files).filter fun path =>
          !path.startsWith (root.join ⟨pattern⟩) := by
    simp only [keeps, List.filter_flatMap, List.flatMap_map, files_under_and]
  rw [found, mem_inOrder_filter_iff fun a b alike => by rw [Path.startsWith, Path.startsWith, alike],
    Bool.not_eq_true', ← Bool.not_eq_true, Path.startsWith, List.isPrefixOf_iff_prefix]

end Listing

open Exclusions (LeavesOut IsBracketed) in
/-- What the patterns of valid settings do. Each of them can be read as a glob, and a path that it
matches below the root is not listed, unless its only wildcards are classes. Then the pattern leaves
out what lies below the path that is spelled like it, and of the paths that it matches those are
listed that lie elsewhere and are listed without it. -/
theorem patterns_leave_out {settings : Settings} (valid : settings.validate = .ok ()) (disk : Disk)
    (root : Path) (paths : List Path) :
    ∃ listing, Listing.scan disk root paths settings.ignores = .ok listing ∧
      ∀ pattern ∈ settings.ignores, ∃ glob without, Glob.parse pattern = .ok glob ∧
        Listing.scan disk root paths (settings.ignores.filter (· ≠ pattern)) = .ok without ∧
        ∀ path relative, path.stripPrefix? root = some relative →
          Glob.Matches glob.tokens relative.spelling.toList →
            (LeavesOut root path pattern ↔
              ¬ IsBracketed pattern ∨ (root.join ⟨pattern⟩).components <+: path.components) ∧
            (¬ IsBracketed pattern → path ∉ listing.files) ∧
            (IsBracketed pattern → (path ∈ listing.files ↔ path ∈ without.files ∧
              ¬ (root.join ⟨pattern⟩).components <+: path.components)) := by
  have readable := Settings.parse_of_validate valid
  have scans {patterns : List String} (given : ∀ pattern ∈ patterns, pattern ∈ settings.ignores) :
      ∃ listing, Listing.scan disk root paths patterns = .ok listing := by
    obtain ⟨exclusions, read⟩ := Exclusions.exists_ofPatterns root
      (fun pattern among _ => readable pattern (given pattern among))
    exact ⟨_, Listing.scan_eq_ok_iff.mpr ⟨exclusions, read, rfl⟩⟩
  obtain ⟨listing, scanned⟩ := scans fun _ => id
  refine ⟨listing, scanned, fun pattern given => ?_⟩
  obtain ⟨glob, parsed⟩ := readable pattern given
  have fewer : ∀ other ∈ settings.ignores.filter (· ≠ pattern), other ∈ settings.ignores :=
    fun other among => (List.mem_filter.mp among).1
  obtain ⟨without, rescanned⟩ := scans fewer
  refine ⟨glob, without, parsed, rescanned, fun path relative stripped found => ?_⟩
  have out := Exclusions.leavesOut_iff stripped parsed found
  refine ⟨out, fun plain listed => ?_, fun bracketed => ?_⟩
  · exact Listing.kept_of_scan scanned listed pattern given (out.mpr (.inl plain))
  · exact Listing.mem_files_iff_of_literal given bracketed.1 scanned rescanned path

namespace Listing.Sample

/-- Settings with a class, a name and a wildcard. -/
def ignoring : Settings := { ignores := ["[a].ast.json", "b.ast.json", "dist/*"] }

/-- A disk with a document for each of the patterns. -/
def matched : Disk where
  entries :=
    [(["a.ast.json"], .file (.text "\x7b\x7d") .full),
      (["b.ast.json"], .file (.text "\x7b\x7d") .full), (["dist"], .directory .full),
      (["dist", "c.ast.json"], .file (.text "\x7b\x7d") .full)]

/-- The pattern with a class as a glob. -/
def bracketed : Glob := ⟨.within [.single 'a'] :: ".ast.json".toList.map .char⟩

theorem scan_matched : scan matched ⟨"/"⟩ [] ignoring.ignores = .ok ⟨[⟨"/a.ast.json"⟩], 0⟩ := by
  let exclusions : Exclusions :=
    ⟨[⟨"/[a].ast.json"⟩, ⟨"/b.ast.json"⟩], [⟨"dist/".toList.map .char ++ [.anySequence]⟩]⟩
  have found : under matched (fun path => !exclusions.excludes ⟨"/"⟩ path) ⟨"/"⟩ =
      ⟨[⟨"/a.ast.json"⟩], 0⟩ := by
    decide +kernel
  refine scan_eq_ok_iff.mpr ⟨exclusions, rfl, ?_⟩
  rw [tops, List.isEmpty_nil, if_pos rfl, List.map_singleton, found]
  simp [inOrder, dropRepeated]

end Listing.Sample

open Exclusions (LeavesOut IsBracketed) in
open Listing.Sample (ignoring matched bracketed) in
/-- A class does not work: its pattern matches a document that is listed all the same, as it is
without the pattern. The other patterns work. -/
theorem bracketed_pattern_listed :
    ignoring.validate = .ok () ∧
    Listing.scan matched ⟨"/"⟩ [] ignoring.ignores = .ok ⟨[⟨"/a.ast.json"⟩], 0⟩ ∧
    (Glob.parse "[a].ast.json" = .ok bracketed ∧
      Path.stripPrefix? ⟨"/a.ast.json"⟩ ⟨"/"⟩ = some ⟨"a.ast.json"⟩ ∧
      Glob.Matches bracketed.tokens "a.ast.json".toList) ∧
    IsBracketed "[a].ast.json" ∧ ¬ LeavesOut ⟨"/"⟩ ⟨"/a.ast.json"⟩ "[a].ast.json" ∧
    (∃ without, Listing.scan matched ⟨"/"⟩ [] ["b.ast.json", "dist/*"] = .ok without ∧
      ⟨"/a.ast.json"⟩ ∈ without.files) ∧
    LeavesOut ⟨"/"⟩ ⟨"/b.ast.json"⟩ "b.ast.json" ∧
    LeavesOut ⟨"/"⟩ ⟨"/dist/c.ast.json"⟩ "dist/*" := by
  have valid : ignoring.validate = .ok () := rfl
  have read : Glob.parse "[a].ast.json" = .ok bracketed := by decide +kernel
  obtain ⟨listing, scanned, patterns⟩ := patterns_leave_out valid matched ⟨"/"⟩ []
  have out {pattern : String} (given : pattern ∈ ignoring.ignores) {path : Path} (relative : Path)
      (stripped : path.stripPrefix? ⟨"/"⟩ = some relative) {glob : Glob}
      (parsed : Glob.parse pattern = .ok glob) (accepted : glob.accepts relative.spelling = true) :
      LeavesOut ⟨"/"⟩ path pattern ↔ ¬ IsBracketed pattern ∨
        (Path.join ⟨"/"⟩ ⟨pattern⟩).components <+: path.components := by
    obtain ⟨again, _, alsoParsed, _, works⟩ := patterns pattern given
    obtain rfl := Except.ok.inj (parsed.symm.trans alsoParsed)
    exact (works path relative stripped ((Glob.accepts_iff ..).mp accepted)).1
  have stripped : Path.stripPrefix? ⟨"/a.ast.json"⟩ ⟨"/"⟩ = some ⟨"a.ast.json"⟩ := by decide +kernel
  have accepted : bracketed.accepts "a.ast.json" = true := by decide +kernel
  refine ⟨valid, Listing.Sample.scan_matched,
    ⟨read, stripped, (Glob.accepts_iff ..).mp accepted⟩, by decide +kernel, ?_, ?_, ?_, ?_⟩
  · rw [out (List.mem_cons_self ..) _ stripped read accepted]
    decide +kernel
  · obtain ⟨again, without, alsoParsed, rescanned, works⟩ :=
      patterns "[a].ast.json" (List.mem_cons_self ..)
    obtain rfl := Except.ok.inj (read.symm.trans alsoParsed)
    obtain rfl := Except.ok.inj (Listing.Sample.scan_matched.symm.trans scanned)
    refine ⟨without, rescanned, ?_⟩
    exact (((works _ _ stripped ((Glob.accepts_iff ..).mp accepted)).2.2 (by decide +kernel)).mp
      (List.mem_singleton_self _)).1
  · exact (out (by decide) ⟨"b.ast.json"⟩ (by decide +kernel) rfl
      (by decide +kernel)).mpr (.inl (by decide +kernel))
  · exact (out (by decide) ⟨"dist/c.ast.json"⟩ (by decide +kernel) rfl
      (by decide +kernel)).mpr (.inl (by decide +kernel))

end TemplateLint
