import Mathlib
import TemplateLint.Proofs.Findings
import TemplateLint.Proofs.Keys
import TemplateLint.Proofs.Stripping

/-! # Entries are taken out one occurrence at a time

Whatever an allowlist does to a text, it does by cuts: one occurrence of an entry goes, and what
stood on its two sides joins. A cut by a nonempty entry shortens the text, so the loop that takes an
entry out again and again ends, although a cut may bring new occurrences about. What holds of one
cut holds of everything that is left of a text: it is a part of the text with its order kept, so a
text is never bare without a visible character of its own.
-/

namespace TemplateLint

open Text
open Relation (ReflTransGen TransGen)

namespace Allowlist

variable {entry text next : List Char}

theorem toList_ne_nil {entry : String} (nonempty : entry ≠ "") : entry.toList ≠ [] :=
  mt String.toList_eq_nil_iff.mp nonempty

theorem occursIn_iff (entry text : List Char) : occursIn entry text = true ↔ entry <:+: text := by
  induction text with
  | nil => simp [occursIn]
  | cons c rest ih =>
    rw [occursIn, Bool.or_eq_true, ih, List.isPrefixOf_iff_prefix, List.infix_cons_iff]

/-! ## Cuts -/

/-- One occurrence of an entry is taken out of a text. -/
inductive Cut (entry : List Char) : List Char → List Char → Prop where
  | mk (before behind : List Char) : Cut entry (before ++ (entry ++ behind)) (before ++ behind)

namespace Cut

theorem cons (c : Char) (cut : Cut entry text next) : Cut entry (c :: text) (c :: next) := by
  cases cut with
  | mk before behind => exact .mk (c :: before) behind

theorem length_lt (nonempty : entry ≠ []) (cut : Cut entry text next) :
    next.length < text.length := by
  have long := List.length_pos_iff.mpr nonempty
  cases cut with
  | mk before behind =>
    simp only [List.length_append]
    omega

theorem sublist (cut : Cut entry text next) : next.Sublist text := by
  cases cut with
  | mk before behind => exact (List.Sublist.refl before).append (List.sublist_append_right ..)

end Cut

theorem length_lt_of_cuts (nonempty : entry ≠ []) (cuts : TransGen (Cut entry) text next) :
    next.length < text.length := by
  induction cuts with
  | single cut => exact cut.length_lt nonempty
  | tail _ cut ih => exact (cut.length_lt nonempty).trans ih

theorem sublist_of_cuts (cuts : ReflTransGen (Cut entry) text next) : next.Sublist text := by
  induction cuts with
  | refl => exact .refl text
  | tail _ cut ih => exact cut.sublist.trans ih

/-! ## One pass over a text -/

/-- An entry at the head of a text is cut off. -/
theorem cut_of_isPrefixOf {c : Char} (nonempty : entry ≠ [])
    (starts : entry.isPrefixOf (c :: text) = true) :
    Cut entry (c :: text) (text.drop (entry.length - 1)) := by
  rw [drop_of_isPrefixOf nonempty starts]
  exact .mk [] _

/-- A pass from left to right makes one cut after another. -/
theorem removeFrom_cuts (nonempty : entry ≠ []) (skipped : Nat) (text : List Char) :
    ReflTransGen (Cut entry) (text.drop skipped) (removeFrom entry skipped text) := by
  induction text generalizing skipped with
  | nil => cases skipped <;> exact .refl
  | cons c rest ih =>
    cases skipped with
    | succ skipped => exact ih skipped
    | zero =>
      rw [removeFrom, List.drop_zero]
      split_ifs with starts
      · exact (ih _).head (cut_of_isPrefixOf nonempty starts)
      · exact (ih 0).lift (c :: ·) fun _ _ => .cons c

/-- A pass over a text in which the entry occurs makes a cut. -/
theorem remove_cuts (nonempty : entry ≠ []) (occurs : occursIn entry text = true) :
    TransGen (Cut entry) text (remove entry text) := by
  induction text with
  | nil => exact absurd (List.isEmpty_iff.mp occurs) nonempty
  | cons c rest ih =>
    rw [remove, removeFrom]
    split_ifs with starts
    · exact .head' (cut_of_isPrefixOf nonempty starts) (removeFrom_cuts nonempty _ rest)
    · have later : occursIn entry rest = true := by simpa [occursIn, starts] using occurs
      exact (ih later).lift (c :: ·) fun _ _ => .cons c

/-! ## One pass after another -/

theorem stripSteps_cuts (nonempty : entry ≠ []) (steps : Nat) (text : List Char) :
    ReflTransGen (Cut entry) text (stripSteps entry steps text) := by
  induction steps generalizing text with
  | zero => exact .refl
  | succ steps ih =>
    rw [stripSteps]
    split_ifs with occurs
    · exact (remove_cuts nonempty occurs).to_reflTransGen.trans (ih _)
    · exact .refl

/-- As many passes as a text has characters are enough, because every pass but the last shortens
it. -/
theorem occursIn_stripSteps (nonempty : entry ≠ []) {steps : Nat} {text : List Char}
    (enough : text.length ≤ steps) : occursIn entry (stripSteps entry steps text) = false := by
  induction steps generalizing text with
  | zero =>
    rw [List.length_eq_zero_iff.mp (Nat.le_zero.mp enough), stripSteps, occursIn]
    simpa using nonempty
  | succ steps ih =>
    rw [stripSteps]
    split_ifs with occurs
    · have shorter := length_lt_of_cuts nonempty (remove_cuts nonempty occurs)
      exact ih (by omega)
    · simpa using occurs

theorem strip_cuts (entry text : List Char) :
    ReflTransGen (Cut entry) text (strip entry text) := by
  rw [strip]
  split_ifs with empty
  · exact .refl
  · exact stripSteps_cuts (mt List.isEmpty_iff.mpr empty) text.length text

/-- A nonempty entry is gone when it has been taken out. -/
theorem occursIn_strip (nonempty : entry ≠ []) (text : List Char) :
    occursIn entry (strip entry text) = false := by
  rw [strip, if_neg (mt List.isEmpty_iff.mp nonempty)]
  exact occursIn_stripSteps nonempty (Nat.le_refl _)

theorem residue_cons (entry : String) (entries : List String) (text : List Char) :
    residue (entry :: entries) text = residue entries (strip entry.toList text) := rfl

theorem residue_sublist (entries : List String) (text : List Char) :
    (residue entries text).Sublist text := by
  induction entries generalizing text with
  | nil => exact .refl text
  | cons entry entries ih =>
    rw [residue_cons]
    exact (ih _).trans (sublist_of_cuts (strip_cuts entry.toList text))

/-! ## The two loops -/

/-- Where the loops are: the entries that are left, the first of them at hand, and what is left of
the text. -/
structure Pass where
  entries : List String
  text : List Char

/-- The rounds of the loops. -/
inductive Round : Pass → Pass → Prop where
  /-- The entry at hand occurs, and a pass takes its occurrences out. -/
  | again {entry : String} {entries : List String} {text : List Char}
      (occurs : occursIn entry.toList text = true) :
      Round ⟨entry :: entries, text⟩ ⟨entry :: entries, remove entry.toList text⟩
  /-- The entry at hand occurs no more, and the next one is taken. -/
  | onward {entry : String} {entries : List String} {text : List Char}
      (absent : occursIn entry.toList text = false) :
      Round ⟨entry :: entries, text⟩ ⟨entries, text⟩

namespace Round

variable {pass other after : Pass}

/-- No entry at hand or left is empty. -/
def Usable (pass : Pass) : Prop := ∀ entry ∈ pass.entries, entry ≠ ""

theorem keeps_usable (usable : Usable pass) (round : Round pass after) : Usable after := by
  cases round with
  | again => exact usable
  | onward => exact fun entry among => usable entry (List.mem_cons_of_mem _ among)

/-- Every round takes an entry or a character away. -/
theorem size_lt (usable : Usable pass) (round : Round pass after) :
    after.entries.length + after.text.length < pass.entries.length + pass.text.length := by
  cases round with
  | @again entry entries text occurs =>
    have nonempty := toList_ne_nil (usable entry (List.mem_cons_self ..))
    have shorter := length_lt_of_cuts nonempty (remove_cuts nonempty occurs)
    exact Nat.add_lt_add_left shorter _
  | onward =>
    simp only [List.length_cons]
    omega

/-- The loops cannot go on for ever. -/
theorem acc (usable : Usable pass) : Acc (fun after pass => Round pass after) pass := by
  induction size : pass.entries.length + pass.text.length using Nat.strong_induction_on
    generalizing pass with
  | _ n ih =>
    subst size
    exact ⟨_, fun after round => ih _ (round.size_lt usable) (round.keeps_usable usable) rfl⟩

theorem deterministic (round : Round pass after) (alike : Round pass other) : after = other := by
  cases round with
  | again occurs =>
    cases alike with
    | again => rfl
    | onward absent => exact absurd (occurs.symm.trans absent) (by decide)
  | onward absent =>
    cases alike with
    | again occurs => exact absurd (occurs.symm.trans absent) (by decide)
    | onward => rfl

theorem stripSteps_rounds (entry : String) (entries : List String) (steps : Nat)
    (text : List Char) : ReflTransGen Round ⟨entry :: entries, text⟩
      ⟨entry :: entries, stripSteps entry.toList steps text⟩ := by
  induction steps generalizing text with
  | zero => exact .refl
  | succ steps ih =>
    rw [stripSteps]
    split_ifs with occurs
    · exact (ih _).head (.again occurs)
    · exact .refl

/-- The rounds for one entry leave what is left when it has been taken out. -/
theorem strip_rounds {entry : String} (nonempty : entry ≠ "") (entries : List String)
    (text : List Char) :
    ReflTransGen Round ⟨entry :: entries, text⟩ ⟨entries, strip entry.toList text⟩ := by
  have gone := occursIn_strip (toList_ne_nil nonempty) text
  rw [strip, if_neg (mt List.isEmpty_iff.mp (toList_ne_nil nonempty))] at gone ⊢
  exact (stripSteps_rounds entry entries text.length text).tail (.onward gone)

theorem residue_rounds {entries : List String} (usable : ∀ entry ∈ entries, entry ≠ "")
    (text : List Char) : ReflTransGen Round ⟨entries, text⟩ ⟨[], residue entries text⟩ := by
  induction entries generalizing text with
  | nil => exact .refl
  | cons entry entries ih =>
    rw [residue_cons]
    exact (strip_rounds (usable entry (List.mem_cons_self ..)) entries text).trans
      (ih (fun other among => usable other (List.mem_cons_of_mem _ among)) _)

/-- Wherever the loops are, they come to the same end. -/
theorem reaches_end {left : List Char} (whole : ReflTransGen Round pass ⟨[], left⟩)
    (begun : ReflTransGen Round pass after) : ReflTransGen Round after ⟨[], left⟩ := by
  induction begun with
  | refl => exact whole
  | tail _ round ih =>
    rcases ih.cases_head with rfl | ⟨next, alike, rest⟩
    · cases round
    · rwa [round.deterministic alike]

end Round

/-! ## Bare text -/

theorem trimChars_eq_nil_iff (text : List Char) :
    trimChars text = [] ↔ text.all isBlank = true := by
  -- What is left behind the leading blanks starts with a visible character, if anything is.
  have inner : (∀ c ∈ text.dropWhile isBlank, isBlank c = true) ↔ text.dropWhile isBlank = [] := by
    constructor
    · intro blank
      by_contra left
      have visible := List.head_dropWhile_not isBlank left
      exact Bool.false_ne_true (visible.symm.trans (blank _ (List.head_mem left)))
    · intro none
      rw [none]
      exact List.forall_mem_nil _
  rw [trimChars, List.reverse_eq_nil_iff, List.dropWhile_eq_nil_iff, List.all_eq_true,
    ← List.dropWhile_eq_nil_iff (p := isBlank) (l := text), ← inner]
  simp only [List.mem_reverse]

theorem trim_eq_empty_iff (text : String) : trim text = "" ↔ text.toList.all isBlank = true := by
  rw [← trimChars_eq_nil_iff, trim, ← String.toList_eq_nil_iff, String.toList_ofList]

/-- Bare text has a visible character. -/
theorem visible_of_bare? {entries : List String} {raw text : String}
    (bare : bare? entries raw = some text) :
    text = raw ∧ ∃ c ∈ raw.toList, isBlank c = false := by
  rw [bare?] at bare
  split_ifs at bare with blank
  obtain ⟨c, left, visible⟩ := List.all_eq_false.mp (Bool.not_eq_true _ ▸ blank)
  exact ⟨(Option.some.inj bare).symm, c, (residue_sublist entries raw.toList).mem left,
    by simpa using visible⟩

theorem bare?_eq_of_residue (entries : List String) (raw : String) :
    bare? entries raw =
      if trimChars (residue entries raw.toList) = [] then none else some raw := by
  simp only [bare?, trimChars_eq_nil_iff]

end Allowlist

/-- The text of a finding, which is the last segment of its key, is never empty. -/
theorem Rule.text_ne_empty {rule : Rule} {template : Template} {finding : Finding}
    (found : finding ∈ rule.findings template) : finding.text ≠ "" := by
  rw [rule.findings_eq] at found
  obtain ⟨candidate, -, accepted⟩ := List.mem_filterMap.mp found
  obtain ⟨-, bare, same⟩ := rule.accept?_eq_some_iff.mp accepted
  obtain ⟨-, c, present, visible⟩ := Allowlist.visible_of_bare? bare
  rw [same, Finding.text, Ne, Allowlist.trim_eq_empty_iff, List.all_eq_true]
  intro blank
  exact Bool.false_ne_true (visible.symm.trans (blank c present))

namespace Allowlist

/-- Stripping with nonempty entries, in whatever order, comes to an end, and to the same one from
wherever it has got to; a text is bare if more than blanks is left there. A visible character that
is in no entry makes a text bare. A bare text is the text that was given, it has a visible
character, and what it adds to a key is not empty. -/
theorem stripping_ends_and_tells {entries : List String}
    (usable : ∀ entry ∈ entries, entry ≠ "") (raw : String) :
    Acc (fun after pass => Round pass after) ⟨entries, raw.toList⟩ ∧
      (∃ left, (∀ pass, ReflTransGen Round ⟨entries, raw.toList⟩ pass →
          ReflTransGen Round pass ⟨[], left⟩) ∧
        bare? entries raw = if trimChars left = [] then none else some raw) ∧
      (∀ c ∈ raw.toList, isBlank c = false → (∀ entry ∈ entries, c ∉ entry.toList) →
        bare? entries raw = some raw) ∧
      (∀ text, bare? entries raw = some text →
        text = raw ∧ (∃ c ∈ raw.toList, isBlank c = false) ∧ trim text ≠ "") ∧
      ∀ (rule : Rule) (template : Template), ∀ finding ∈ rule.findings template,
        ∀ (catalog : Catalog) (filePath : String),
          ∃ text, (catalog.findingSegments filePath finding).getLast? = some text ∧
            text = trim finding.source ∧ text ≠ "" := by
  refine ⟨Round.acc usable, ⟨residue entries raw.toList, ?_, bare?_eq_of_residue entries raw⟩,
    fun c present visible foreign => bare?_of_foreign present visible foreign, ?_, ?_⟩
  · intro pass begun
    exact Round.reaches_end (Round.residue_rounds usable raw.toList) begun
  · intro text bare
    obtain ⟨rfl, c, present, visible⟩ := visible_of_bare? bare
    refine ⟨rfl, ⟨c, present, visible⟩, fun empty => ?_⟩
    have blank := List.all_eq_true.mp ((trim_eq_empty_iff text).mp empty) c present
    exact Bool.false_ne_true (visible.symm.trans blank)
  · intro rule template finding found catalog filePath
    obtain ⟨place, segments⟩ := catalog.findingSegments_eq filePath
    refine ⟨finding.text, ?_, rfl, Rule.text_ne_empty found⟩
    rw [segments, List.getLast?_concat]

/-- Taking out one entry brings the other about, and the third character is in no entry. -/
theorem stripping_ends_on_nested :
    (∀ entry ∈ ["ab"], entry ≠ "") ∧ remove "ab".toList "aabbx".toList = "abx".toList ∧
      Acc (fun after pass => Round pass after) ⟨["ab"], "aabbx".toList⟩ ∧
      bare? ["ab"] "aabbx" = some "aabbx" ∧ bare? ["ab"] "aabb" = none := by
  have usable : ∀ entry ∈ ["ab"], entry ≠ "" := by decide
  obtain ⟨ends, -, foreign, -⟩ := stripping_ends_and_tells usable "aabbx"
  exact ⟨usable, by decide, ends, foreign 'x' (by decide) (by decide) (by decide), by decide⟩

end Allowlist

end TemplateLint
