import Mathlib
import TemplateLint.Proofs.Fixing
import TemplateLint.Proofs.Stripping

/-! # Keys that are written alike

A key is written with dots between its segments, and a segment may hold dots of its own: a directory,
the stem of a file or, above all, a text. So one written key may stand for several lists of segments,
and for several texts. What a written key does determine are its pieces, the parts between any two
dots. Two lists of segments are written alike if and only if they have the same pieces, and how many
dots the segments hold is all that is lost.
-/

namespace TemplateLint

namespace Key

/-- The parts of a segment, or of a written key, between its dots. -/
def pieces (segment : String) : List (List Char) := segment.toList.splitOn '.'

/-- How many dots a segment holds. -/
def dots (segment : String) : Nat := segment.toList.count '.'

theorem pieces_injective : Function.Injective pieces := by
  intro segment other same
  have joined := congrArg (List.intercalate ['.']) same
  rw [pieces, pieces, List.intercalate_splitOn, List.intercalate_splitOn] at joined
  exact String.toList_inj.mp joined

theorem length_pieces (segment : String) : (pieces segment).length = dots segment + 1 := by
  have counted (text : List Char) : (text.splitOn '.').length = text.count '.' + 1 := by
    induction text with
    | nil => rfl
    | cons c rest ih =>
      by_cases dot : c = '.'
      · rw [dot, List.count_cons_self, ← ih]
        simp [List.splitOn, List.splitOnP_cons_eq_if_modifyHead]
      · rw [List.count_cons_of_ne dot, ← ih]
        simp [List.splitOn, List.splitOnP_cons_eq_if_modifyHead, dot]
  exact counted segment.toList

theorem pieces_of_dotless {segment : String} (dotless : dots segment = 0) :
    pieces segment = [segment.toList] := by
  have absent : '.' ∉ segment.toList := List.count_eq_zero.mp dotless
  have alone : List.splitOn '.' (List.intercalate ['.'] [segment.toList]) = [segment.toList] :=
    List.splitOn_intercalate '.' (by simpa using absent) (List.cons_ne_nil _ _)
  simpa [pieces] using alone

/-- The pieces of a written key are those of its segments. -/
theorem pieces_written {segments : List String} (some : segments ≠ []) :
    pieces (written segments) = segments.flatMap pieces := by
  have chars : (written segments).toList =
      List.intercalate ['.'] (segments.map String.toList) := by
    rw [written, String.toList_intercalate]
    rfl
  unfold pieces
  rw [chars]
  clear chars
  induction segments with
  | nil => exact absurd rfl some
  | cons segment rest ih =>
    cases rest with
    | nil => simp
    | cons next others =>
      have behind := ih (List.cons_ne_nil next others)
      rw [List.map_cons, List.map_cons, List.intercalate_cons_cons, List.append_assoc,
        List.singleton_append, List.flatMap_cons, ← behind]
      exact List.splitOnP_append_cons _ _ rfl

/-- Segments with the same pieces and, one by one, equally many dots are the same. -/
theorem eq_of_flatMap_pieces {segments others : List String}
    (same : segments.flatMap pieces = others.flatMap pieces)
    (equallyMany : segments.map dots = others.map dots) : segments = others := by
  induction segments generalizing others with
  | nil => simpa using equallyMany.symm
  | cons segment rest ih =>
    cases others with
    | nil => cases equallyMany
    | cons other more =>
      obtain ⟨here, behind⟩ := List.cons.inj equallyMany
      rw [List.flatMap_cons, List.flatMap_cons] at same
      have lengths : (pieces segment).length = (pieces other).length := by
        rw [length_pieces, length_pieces, here]
      obtain ⟨first, tail⟩ := List.append_inj same lengths
      rw [pieces_injective first, ih tail behind]

theorem eq_of_dotless {segments others : List String}
    (same : segments.flatMap pieces = others.flatMap pieces)
    (dotless : ∀ segment ∈ segments ++ others, dots segment = 0) : segments = others := by
  have chars (list : List String) (free : ∀ segment ∈ list, dots segment = 0) :
      list.flatMap pieces = list.map String.toList := by
    rw [List.map_eq_flatMap]
    exact List.flatMap_congr fun segment present => pieces_of_dotless (free segment present)
  rw [chars segments fun segment present => dotless segment (List.mem_append_left _ present),
    chars others fun segment present => dotless segment (List.mem_append_right _ present)] at same
  exact List.map_injective_iff.mpr (fun _ _ => String.toList_inj.mp) same

/-- The last segments agree if they hold equally many dots, whatever stands before them. -/
theorem last_eq_of_flatMap_pieces {before beforeOther : List String} {last other : String}
    (same : (before ++ [last]).flatMap pieces = (beforeOther ++ [other]).flatMap pieces)
    (equallyMany : dots last = dots other) : last = other := by
  simp only [List.flatMap_append, List.flatMap_singleton] at same
  have lengths : (pieces last).length = (pieces other).length := by
    rw [length_pieces, length_pieces, equallyMany]
  exact pieces_injective (List.append_inj' same lengths).2

theorem last_eq_of_same_before {before : List String} {last other : String}
    (same : (before ++ [last]).flatMap pieces = (before ++ [other]).flatMap pieces) :
    last = other := by
  simp only [List.flatMap_append, List.flatMap_singleton] at same
  exact pieces_injective (List.append_cancel_left same)

end Key

namespace Catalog

/-- A key is that of the place of a text, and then the text. -/
theorem findingSegments_eq (catalog : Catalog) (filePath : String) :
    ∃ place, ∀ finding : Finding,
      catalog.findingSegments filePath finding = place ++ [finding.text] :=
  ⟨_, fun _ => rfl⟩

theorem written_eq_iff (catalog : Catalog) (filePath otherPath : String) (finding other : Finding) :
    Key.written (catalog.findingSegments filePath finding) =
        Key.written (catalog.findingSegments otherPath other) ↔
      (catalog.findingSegments filePath finding).flatMap Key.pieces =
        (catalog.findingSegments otherPath other).flatMap Key.pieces := by
  rw [← Key.pieces_written (by simp [findingSegments, segments, Key.segments]),
    ← Key.pieces_written (by simp [findingSegments, segments, Key.segments])]
  exact Key.pieces_injective.eq_iff.symm

/-- Two replacements have one key if and only if their segments have the same pieces. The segments
are the same then if, one by one, they hold equally many dots; in particular if they hold none, and
if both texts are in one template. The texts are the same if they hold equally many dots. -/
theorem keys_alike_iff (catalog : Catalog) (filePath otherPath : String) (finding other : Finding)
    (replacement another : Replacement)
    (planned : catalog.plan? filePath finding = some replacement)
    (alsoPlanned : catalog.plan? otherPath other = some another) :
    (replacement.key = another.key ↔
      (catalog.findingSegments filePath finding).flatMap Key.pieces =
        (catalog.findingSegments otherPath other).flatMap Key.pieces) ∧
    (replacement.key = another.key →
      (catalog.findingSegments filePath finding = catalog.findingSegments otherPath other ↔
        (catalog.findingSegments filePath finding).map Key.dots =
          (catalog.findingSegments otherPath other).map Key.dots) ∧
      (finding.text = other.text ↔ Key.dots finding.text = Key.dots other.text) ∧
      ((∀ segment ∈ catalog.findingSegments filePath finding ++
          catalog.findingSegments otherPath other, Key.dots segment = 0) ∨ filePath = otherPath →
        catalog.findingSegments filePath finding = catalog.findingSegments otherPath other ∧
          finding.text = other.text)) := by
  obtain ⟨_, _, _, key, _⟩ := plan?_eq_some_iff.mp planned
  obtain ⟨_, _, _, otherKey, _⟩ := plan?_eq_some_iff.mp alsoPlanned
  rw [key, otherKey, catalog.written_eq_iff]
  refine ⟨Iff.rfl, fun alike => ?_⟩
  obtain ⟨place, segments⟩ := catalog.findingSegments_eq filePath
  obtain ⟨otherPlace, otherSegments⟩ := catalog.findingSegments_eq otherPath
  have texts : finding.text = other.text ↔ Key.dots finding.text = Key.dots other.text := by
    refine ⟨congrArg Key.dots, fun equallyMany => ?_⟩
    rw [segments, otherSegments] at alike
    exact Key.last_eq_of_flatMap_pieces alike equallyMany
  refine ⟨⟨congrArg _, Key.eq_of_flatMap_pieces alike⟩, texts, ?_⟩
  rintro (dotless | rfl)
  · refine ⟨Key.eq_of_dotless alike dotless, texts.mpr ?_⟩
    rw [dotless finding.text (by simp [segments]), dotless other.text (by simp [otherSegments])]
  · rw [segments, segments] at alike
    have same := Key.last_eq_of_same_before alike
    exact ⟨by rw [segments, segments, same], same⟩

end Catalog

/-! ## One key for two texts -/

namespace Key.Sample

/-- The catalog of a project at the top of the disk. -/
def catalog : Catalog := { root := ⟨"/"⟩ }

/-- A bare text of a body. -/
def finding (source : String) : Finding := ⟨source, ⟨1, 1⟩, none, some [.child 0]⟩

/-- A document with one text. -/
def document (filePath text : String) : Document :=
  ⟨filePath, ⟨[.text ⟨text, some ⟨1, 1⟩, []⟩], []⟩⟩

theorem findings_document {rule : Rule} {text : String}
    (bare : Allowlist.bare? rule.allowlist text = some text) (filePath : String) :
    rule.findings (document filePath text).template = [finding text] := by
  rw [rule.findings_eq]
  simp [document, finding, Template.candidates, Node.listCandidates, Node.candidates, Visible,
    Rule.accept?, bare]

end Key.Sample

/-- The two ways to write one text in a template give one key. -/
theorem Catalog.keys_alike_of_blanks :
    Key.Sample.catalog.plan? "app/a.b/c.hbs" (Key.Sample.finding " x.y") =
      some ⟨⟨1, 1⟩, " x.y", "a.b.c.x.y", "\x7b\x7bt \"a.b.c.x.y\"\x7d\x7d"⟩ ∧
    Key.Sample.catalog.plan? "app/a.b/c.hbs" (Key.Sample.finding "x.y ") =
      some ⟨⟨1, 1⟩, "x.y ", "a.b.c.x.y", "\x7b\x7bt \"a.b.c.x.y\"\x7d\x7d"⟩ ∧
    Key.Sample.catalog.findingSegments "app/a.b/c.hbs" (Key.Sample.finding " x.y") =
      Key.Sample.catalog.findingSegments "app/a.b/c.hbs" (Key.Sample.finding "x.y ") := by
  have planned : Key.Sample.catalog.plan? "app/a.b/c.hbs" (Key.Sample.finding " x.y") =
      some ⟨⟨1, 1⟩, " x.y", "a.b.c.x.y", "\x7b\x7bt \"a.b.c.x.y\"\x7d\x7d"⟩ := by decide +kernel
  have alsoPlanned : Key.Sample.catalog.plan? "app/a.b/c.hbs" (Key.Sample.finding "x.y ") =
      some ⟨⟨1, 1⟩, "x.y ", "a.b.c.x.y", "\x7b\x7bt \"a.b.c.x.y\"\x7d\x7d"⟩ := by decide +kernel
  have alike := (Catalog.keys_alike_iff _ _ _ _ _ _ _ planned alsoPlanned).2 rfl
  exact ⟨planned, alsoPlanned, (alike.2.2 (.inr rfl)).1⟩

/-- One key may name texts of two templates: with a text that holds a dot, the key of `y.z` in `a`
is also that of `z` in `a/y`. -/
theorem Catalog.one_key_for_two_texts :
    ¬ ∀ (catalog : Catalog) (rule : Rule) (document other : Document) (finding another : Finding)
      (replacement further : Replacement),
      finding ∈ rule.findings document.template → another ∈ rule.findings other.template →
      catalog.plan? document.filePath finding = some replacement →
      catalog.plan? other.filePath another = some further → replacement.key = further.key →
      catalog.findingSegments document.filePath finding =
          catalog.findingSegments other.filePath another ∧ finding.text = another.text := by
  intro unambiguous
  have found (filePath text : String) (z : 'z' ∈ text.toList) : Key.Sample.finding text ∈
      Rule.default.findings (Key.Sample.document filePath text).template := by
    have bare := Allowlist.bare?_default_of_foreign z (by decide) (by decide)
    rw [Key.Sample.findings_document bare]
    exact List.mem_singleton_self _
  have same := unambiguous Key.Sample.catalog Rule.default
    (Key.Sample.document "app/a.hbs" "y.z") (Key.Sample.document "app/a/y.hbs" "z")
    (Key.Sample.finding "y.z") (Key.Sample.finding "z")
    ⟨⟨1, 1⟩, "y.z", "a.y.z", "\x7b\x7bt \"a.y.z\"\x7d\x7d"⟩
    ⟨⟨1, 1⟩, "z", "a.y.z", "\x7b\x7bt \"a.y.z\"\x7d\x7d"⟩
    (found _ _ (by decide)) (found _ _ (by decide)) (by decide +kernel) (by decide +kernel) rfl
  revert same
  decide +kernel

end TemplateLint
