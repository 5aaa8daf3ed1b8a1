import Mathlib
import TemplateLint.Proofs.StableOrder
import TemplateLint.Report

/-! # The order of a report

Issues are compared by file, then by place, where a whole file comes before all places in it, and
then by rule. A report has a block for each issue in this order, and issues that agree in all three
stand as they were found. What a block and the summary say beyond their own issue, the width of the
margin and the counts, does not depend on the order of the issues at all. So a report only depends
on the order of the issues that agree, and not on the order in which documents are looked at unless
two of them have issues in one file.
-/

namespace TemplateLint

namespace Issue

/-! ## What issues are compared by -/

/-- A place among all places, with a whole file before all places in it. -/
def spot : Option Location → WithBot (ℕ ×ₗ ℕ)
  | none => ⊥
  | some location => ((toLex (location.line, location.column) : ℕ ×ₗ ℕ) : WithBot (ℕ ×ₗ ℕ))

/-- What an issue is sorted by: file, place and rule. -/
def key (issue : Issue) : String ×ₗ WithBot (ℕ ×ₗ ℕ) ×ₗ ℕ :=
  toLex (issue.file, toLex (spot issue.location?, issue.rank))

theorem spot_injective : Function.Injective spot := by
  rintro (_ | ⟨line, column⟩) (_ | ⟨otherLine, otherColumn⟩) same
  · rfl
  · cases same
  · cases same
  · simpa [spot] using same

theorem leLocation_iff (a b : Option Location) : leLocation a b = true ↔ spot a ≤ spot b := by
  cases a with
  | none => simp [leLocation, spot]
  | some a =>
    cases b with
    | none => simp [leLocation, spot]
    | some b => simp [leLocation, spot, Prod.Lex.toLex_le_toLex]

theorem le_iff (a b : Issue) : a.le b = true ↔ a.key ≤ b.key := by
  rw [le, key, key, Prod.Lex.toLex_le_toLex, Prod.Lex.toLex_le_toLex]
  split_ifs with file place
  · simp [file, le_iff_lt_or_eq]
  · have other : spot a.location? ≠ spot b.location? := spot_injective.ne place
    simp [not_not.mp file, other, leLocation_iff, le_iff_lt_or_eq]
  · simp [not_not.mp file, not_not.mp place]

theorem rank_eq_iff (a b : Issue) : a.rank = b.rank ↔ a.rule = b.rule := by
  cases a <;> cases b <;> simp [rank, rule]

theorem key_eq_iff (a b : Issue) : a.key = b.key ↔
    a.file = b.file ∧ a.location? = b.location? ∧ a.rule = b.rule := by
  rw [key, key, toLex_inj, Prod.mk.injEq, toLex_inj, Prod.mk.injEq, spot_injective.eq_iff,
    rank_eq_iff]

end Issue

namespace Report

open Text

/-! ## Blocks and summary -/

theorem render_append (color : Bool) (first second : Styled) :
    Styled.render color (first ++ second) =
      Styled.render color first ++ Styled.render color second := by
  rw [Styled.render, List.map_append, String.join_append]
  rfl

theorem render_flatMap {α : Type} (color : Bool) (write : α → Styled) (items : List α) :
    Styled.render color (items.flatMap write) =
      String.join (items.map fun item => Styled.render color (write item)) := by
  induction items with
  | nil => rfl
  | cons item rest ih =>
    rw [List.flatMap_cons, render_append, ih, List.map_cons, String.join_cons]

/-- The line that sums a report up. -/
def tally (total errors warnings : Nat) : Styled :=
  [colored .red failureMark, plain " ", plain (toString total), plain " ",
   plain (counted total "problem"), plain " (", plain (toString errors), plain " ",
   colored .red (counted errors "error"), plain ", ", plain (toString warnings), plain " ",
   colored .yellow (counted warnings "warning"), plain ")", newline]

/-- Every issue is an error or a warning. -/
theorem count_add_count (issues : List Issue) :
    count .error issues + count .warning issues = issues.length := by
  rw [List.length_eq_countP_add_countP fun issue : Issue => issue.severity == .error, count, count]
  congr 2
  funext issue
  cases issue.severity <;> rfl

theorem summary_eq (issues : List Issue) :
    summary issues = tally issues.length (count .error issues) (count .warning issues) := by
  rw [← count_add_count]
  rfl

variable {found other : List Issue}

theorem summary_perm (perm : found.Perm other) : summary found = summary other := by
  rw [summary_eq, summary_eq, perm.length_eq, count, count, count, count, perm.countP_eq,
    perm.countP_eq]

/-- The margin has the same width in every order. -/
theorem lineWidth_perm (perm : found.Perm other) : lineWidth found = lineWidth other := by
  rw [lineWidth, lineWidth, (perm.filterMap _).foldl_eq]

/-! ## Order -/

theorem stablySorted_inOrder (found : List Issue) : StablySorted Issue.key found (inOrder found) :=
  stablySorted_mergeSort Issue.le_iff found

theorem inOrder_perm (found : List Issue) : (inOrder found).Perm found :=
  List.mergeSort_perm found Issue.le

/-- A report depends on the order of the issues that agree in file, place and rule only. -/
theorem issues_eq (ties : SameTies Issue.key found other) : issues found = issues other := by
  have sorted : inOrder found = inOrder other :=
    (stablySorted_inOrder found).unique (stablySorted_inOrder other) ties
  have perm : found.Perm other :=
    (inOrder_perm found).symm.trans (sorted ▸ inOrder_perm other)
  have empty : found.isEmpty = other.isEmpty := by
    rw [Bool.eq_iff_iff, List.isEmpty_iff_length_eq_zero, List.isEmpty_iff_length_eq_zero,
      perm.length_eq]
  rw [issues, issues, empty, sorted, lineWidth_perm perm, summary_perm perm]

/-- No file has issues of both documents. -/
def Apart (issuesOf : Path → List Issue) (a b : Path) : Prop :=
  ∀ issue ∈ issuesOf a, ∀ other ∈ issuesOf b, issue.file ≠ other.file

/-- Documents that share no file may be looked at in any order. -/
theorem sameTies_flatMap {issuesOf : Path → List Issue} {documents others : List Path}
    (perm : documents.Perm others) (apart : documents.Pairwise (Apart issuesOf)) :
    SameTies Issue.key (documents.flatMap issuesOf) (others.flatMap issuesOf) := by
  intro value
  induction perm with
  | nil => rfl
  | cons path _ ih =>
    rw [List.flatMap_cons, List.flatMap_cons, List.filter_append, List.filter_append, ih apart.tail]
  | swap a b rest =>
    have alone : ((issuesOf a).filter fun issue => issue.key = value) = [] ∨
        ((issuesOf b).filter fun issue => issue.key = value) = [] := by
      by_contra both
      obtain ⟨first, second⟩ := not_or.mp both
      obtain ⟨issue, among⟩ := List.exists_mem_of_ne_nil _ first
      obtain ⟨other, also⟩ := List.exists_mem_of_ne_nil _ second
      simp only [List.mem_filter, decide_eq_true_eq] at among also
      have differ := List.rel_of_pairwise_cons apart (List.mem_cons_self ..) other also.1 issue among.1
      exact differ ((Issue.key_eq_iff other issue).mp (also.2.trans among.2.symm)).1
    simp only [List.flatMap_cons, List.filter_append]
    rcases alone with none | none <;> simp [none]
  | trans first _ ih again =>
    refine (ih apart).trans (again ((first.pairwise_iff fun apart => ?_).mp apart))
    exact fun issue among other also => (apart other also issue among).symm

/-- The order of issues is total, and issues tie in it if they have the same file, place and rule. A
report of issues is one block for each of them in this order, in which issues that tie stand as they
were found, and a summary with their number and the numbers of errors and warnings. Only the order
of issues that tie makes a difference to it, and that of documents if two share a file. -/
theorem reports_in_order (color : Bool) :
    ((∀ a : Issue, a.le a = true) ∧ (∀ a b : Issue, a.le b = true ∨ b.le a = true) ∧
      ∀ a b c : Issue, a.le b = true → b.le c = true → a.le c = true) ∧
    ((∀ a b : Issue, a.le b = true ↔ a.key ≤ b.key) ∧
      ∀ a b : Issue, a.key = b.key ↔
        a.file = b.file ∧ a.location? = b.location? ∧ a.rule = b.rule) ∧
    (∀ found : List Issue, found ≠ [] → ∃ sorted : List Issue,
      sorted.Perm found ∧ StablySorted Issue.key found sorted ∧
      Styled.render color (issues found) =
        String.join (sorted.map fun issue => Styled.render color (block (lineWidth found) issue)) ++
          Styled.render color (tally found.length
            (found.filter fun issue => issue.severity = .error).length
            (found.filter fun issue => issue.severity = .warning).length)) ∧
    (∀ found other : List Issue, found.Perm other → SameTies Issue.key found other →
      Styled.render color (issues found) = Styled.render color (issues other)) ∧
    ∀ (issuesOf : Path → List Issue) (documents others : List Path), documents.Perm others →
      documents.Pairwise (Apart issuesOf) →
      Styled.render color (issues (documents.flatMap issuesOf)) =
        Styled.render color (issues (others.flatMap issuesOf)) := by
  refine ⟨⟨?_, ?_, ?_⟩, ⟨Issue.le_iff, Issue.key_eq_iff⟩, ?_, ?_, ?_⟩
  · exact fun a => (Issue.le_iff a a).mpr (le_refl _)
  · intro a b
    rw [Issue.le_iff, Issue.le_iff]
    exact le_total _ _
  · intro a b c first second
    rw [Issue.le_iff] at first second ⊢
    exact first.trans second
  · intro found nonempty
    refine ⟨inOrder found, inOrder_perm found, stablySorted_inOrder found, ?_⟩
    have some : found.isEmpty = false := by simpa using nonempty
    rw [issues, some, if_neg Bool.false_ne_true, render_append, render_flatMap, summary_eq, count,
      count, List.countP_eq_length_filter, List.countP_eq_length_filter]
    rfl
  · intro found other _ ties
    rw [issues_eq ties]
  · intro issuesOf documents others perm apart
    rw [issues_eq (sameTies_flatMap perm apart)]

/-- A document that cannot be read. -/
def unread : Issue := .unreadable "app/a.hbs" "expected value"

/-- Bare text in another document. -/
def untranslated : Issue := .bare "app/b.hbs" ⟨"Later", ⟨12, 3⟩, none, none⟩

/-- The later file is reported last, though its issue is found first. -/
theorem report_of_two_documents :
    [untranslated, unread].Perm [unread, untranslated] ∧
    SameTies Issue.key [untranslated, unread] [unread, untranslated] ∧
    Styled.render false (issues [untranslated, unread]) =
      "error: \"Could not read template document\"  parse-error\n" ++
      "  --> app/a.hbs\n   = note: expected value\n\n" ++
      "error: \"Non-translated string used\"  no-bare-strings\n" ++
      "  --> app/b.hbs:12:3\n   = note: source: \"Later\"\n\n" ++
      "✘ 2 problems (2 errors, 0 warnings)\n" := by
  have perm : [untranslated, unread].Perm [unread, untranslated] := .swap ..
  have differ : untranslated.key ≠ unread.key := fun same => by
    have file := ((Issue.key_eq_iff untranslated unread).mp same).1
    exact absurd file (by decide)
  have ties : SameTies Issue.key [untranslated, unread] [unread, untranslated] := fun value => by
    by_cases first : untranslated.key = value <;> by_cases second : unread.key = value <;> simp_all
  have sorted : inOrder [unread, untranslated] = [unread, untranslated] :=
    List.mergeSort_of_pairwise (by decide +kernel)
  refine ⟨perm, ties, ((reports_in_order false).2.2.2.1 _ _ perm ties).trans ?_⟩
  rw [issues, sorted]
  decide +kernel

end Report

end TemplateLint
