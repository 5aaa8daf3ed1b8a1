import Mathlib
import TemplateLint.Proofs.Cuts
import TemplateLint.Proofs.StableOrder

/-! # Texts that are put together from allowed pieces

A text that is put together from entries of an allowlist and blanks should leave nothing but blanks,
yet a cut may begin in one piece and end in another. It does not if no entry ends with what another
one starts with: an occurrence of an entry that is at least as long as all pieces then consists of
whole pieces, so what a cut leaves is put together from the other pieces. Entry by entry, longest
first, the pieces go, and blanks are left.
-/

namespace TemplateLint.Allowlist

open Text
open Relation (ReflTransGen)

/-! ## Overlap -/

/-- No end of an entry is the start of an entry, unless it is one of the two entries as a whole. -/
def NoOverlap (entries : List String) : Prop :=
  ∀ a ∈ entries, ∀ b ∈ entries, ∀ common : List Char, common ≠ [] →
    common <+: a.toList → common ≠ a.toList → common <:+ b.toList → common = b.toList

instance (entries : List String) : Decidable (NoOverlap entries) :=
  decidable_of_iff (∀ a ∈ entries, ∀ b ∈ entries, ∀ common ∈ a.toList.inits, common ≠ [] →
      common ≠ a.toList → common <:+ b.toList → common = b.toList) <| by
    simp only [NoOverlap, List.mem_inits]
    grind

theorem NoOverlap.mono {entries others : List String} (apart : NoOverlap entries)
    (among : ∀ entry ∈ others, entry ∈ entries) : NoOverlap others :=
  fun a first b second => apart a (among a first) b (among b second)

/-- Entries do not overlap if the longer ones end in a mark that they have nowhere else. -/
theorem noOverlap_of_mark (mark : Char) {entries : List String}
    (marked : ∀ entry ∈ entries, 1 < entry.toList.length →
      entry.toList.getLast? = some mark ∧ mark ∉ entry.toList.dropLast) :
    NoOverlap entries := by
  intro a first b second common nonempty starts notWhole ends
  by_contra notOther
  have size := List.length_pos_iff.mpr nonempty
  have inside : common <+: a.toList.dropLast := by
    refine List.prefix_of_prefix_length_le starts (List.dropLast_prefix _) ?_
    have shorter := starts.length_le.lt_of_ne (mt starts.eq_of_length notWhole)
    rw [List.length_dropLast]
    omega
  have longA : 1 < a.toList.length := by
    have := inside.length_le
    rw [List.length_dropLast] at this
    omega
  have longB : 1 < b.toList.length := by
    have shorter := ends.length_le.lt_of_ne (mt ends.eq_of_length notOther)
    omega
  -- The mark ends what is common, and what is common is inside the other entry.
  have last : common.getLast? = some mark := by
    obtain ⟨before, whole⟩ := ends
    rw [← (marked b second longB).1, ← whole, List.getLast?_append_of_ne_nil _ nonempty]
  exact (marked a first longA).2 (inside.subset (List.mem_of_getLast? last))

theorem noOverlap_defaultEntries : NoOverlap defaultEntries :=
  noOverlap_of_mark ';' (by decide +kernel)

/-! ## Whole pieces -/

/-- A piece that an occurrence of an entry either contains or does not touch. -/
structure Fits (entry piece : List Char) : Prop where
  length_le : piece.length ≤ entry.length
  apart : ∀ front back, front ≠ [] → back ≠ [] → piece = front ++ back →
    ¬ back <+: entry ∧ ¬ front <:+ entry

variable {entry before behind : List Char} {pieces : List (List Char)}

/-- An occurrence starts where a piece starts. -/
theorem split_at_start (fits : ∀ piece ∈ pieces, Fits entry piece)
    (whole : pieces.flatten = before ++ (entry ++ behind)) :
    ∃ left right, pieces = left ++ right ∧ before = left.flatten ∧
      right.flatten = entry ++ behind := by
  obtain ⟨left, right, rfl, rfl, rest⟩ | ⟨left, front, c, back, right, rfl, rfl, rest⟩ :=
    List.flatten_eq_append_iff.mp whole
  · exact ⟨left, right, rfl, rfl, rest.symm⟩
  · rcases eq_or_ne front [] with rfl | cut
    · exact ⟨left, (c :: back) :: right, rfl, by simp, by simpa using rest.symm⟩
    · have fit := fits (front ++ c :: back) (by simp)
      have starts : entry <+: c :: back ++ right.flatten := ⟨behind, rest⟩
      rcases List.prefix_or_prefix_of_prefix starts (List.prefix_append ..) with inside | beyond
      · -- The entry would be a part of the piece, which is not longer.
        have tooLong := fit.length_le
        have size := List.length_pos_iff.mpr cut
        have bound := inside.length_le
        rw [List.length_append] at tooLong
        omega
      · exact absurd beyond (fit.apart front (c :: back) cut (List.cons_ne_nil c back) rfl).1

/-- An occurrence that starts where a piece starts ends where a piece ends. -/
theorem split_at_end (fits : ∀ piece ∈ pieces, Fits entry piece)
    (whole : pieces.flatten = entry ++ behind) :
    ∃ kept : List (List Char), kept.Sublist pieces ∧ kept.flatten = behind := by
  obtain ⟨left, right, rfl, -, rfl⟩ | ⟨left, front, c, back, right, rfl, beyond, rfl⟩ :=
    List.flatten_eq_append_iff.mp whole
  · exact ⟨right, List.sublist_append_right .., rfl⟩
  · rcases eq_or_ne front [] with rfl | cut
    · exact ⟨(c :: back) :: right, List.sublist_append_right .., rfl⟩
    · have fit := fits (front ++ c :: back) (by simp)
      exact absurd ⟨left.flatten, beyond.symm⟩
        (fit.apart front (c :: back) cut (List.cons_ne_nil c back) rfl).2

/-- A cut leaves whole pieces. -/
theorem Cut.whole_pieces {next : List Char} (fits : ∀ piece ∈ pieces, Fits entry piece)
    (cut : Cut entry pieces.flatten next) :
    ∃ kept : List (List Char), kept.Sublist pieces ∧ kept.flatten = next := by
  generalize whole : pieces.flatten = text at cut
  cases cut with
  | mk before behind =>
    obtain ⟨left, right, rfl, rfl, rest⟩ := split_at_start fits whole
    obtain ⟨kept, sub, rfl⟩ := split_at_end
      (fun piece among => fits piece (List.mem_append_right _ among)) rest
    exact ⟨left ++ kept, (List.Sublist.refl left).append sub, by simp⟩

/-- So do cuts one after another. -/
theorem whole_pieces_of_cuts {next : List Char} (fits : ∀ piece ∈ pieces, Fits entry piece)
    (cuts : ReflTransGen (Cut entry) pieces.flatten next) :
    ∃ kept : List (List Char), kept.Sublist pieces ∧ kept.flatten = next := by
  induction cuts with
  | refl => exact ⟨pieces, .refl pieces, rfl⟩
  | tail _ cut ih =>
    obtain ⟨kept, sub, rfl⟩ := ih
    obtain ⟨fewer, less, left⟩ := cut.whole_pieces fun piece among => fits piece (sub.mem among)
    exact ⟨fewer, less.trans sub, left⟩

/-- Stripping leaves whole pieces too, and none that is the entry. -/
theorem strip_pieces (nonempty : entry ≠ []) (fits : ∀ piece ∈ pieces, Fits entry piece) :
    ∃ kept : List (List Char), kept.Sublist pieces ∧ entry ∉ kept ∧
      kept.flatten = strip entry pieces.flatten := by
  obtain ⟨kept, sub, left⟩ := whole_pieces_of_cuts fits (strip_cuts entry pieces.flatten)
  refine ⟨kept, sub, fun among => ?_, left⟩
  have occurs : occursIn entry kept.flatten = true :=
    (occursIn_iff ..).mpr (List.infix_of_mem_flatten among)
  rw [left, occursIn_strip nonempty] at occurs
  exact Bool.false_ne_true occurs

/-! ## Allowed pieces -/

/-- A nonempty entry, or a blank. -/
def Allowed (entries : List String) (piece : String) : Prop :=
  (piece ∈ entries ∧ piece ≠ "") ∨ ∃ c, isBlank c = true ∧ piece = String.singleton c

/-- A piece with a visible character that is in no entry. -/
def Foreign (entries : List String) (piece : String) : Prop :=
  ∃ c ∈ piece.toList, isBlank c = false ∧ ∀ entry ∈ entries, c ∉ entry.toList

/-- A blank fits every nonempty entry, since nothing is inside it. -/
theorem fits_of_length_one {piece : List Char} (nonempty : entry ≠ []) (single : piece.length = 1) :
    Fits entry piece where
  length_le := by
    have := List.length_pos_iff.mpr nonempty
    omega
  apart := by
    intro front back first second whole
    have := List.length_pos_iff.mpr first
    have := List.length_pos_iff.mpr second
    rw [whole, List.length_append] at single
    omega

/-- Entries that do not overlap fit those that are at least as long. -/
theorem fits_of_noOverlap {entries : List String} (apart : NoOverlap entries) {long short : String}
    (first : long ∈ entries) (second : short ∈ entries)
    (shorter : short.toList.length ≤ long.toList.length) : Fits long.toList short.toList where
  length_le := shorter
  apart := by
    intro front back nonempty alsoNonempty whole
    have sizes := congrArg List.length whole
    rw [List.length_append] at sizes
    have := List.length_pos_iff.mpr nonempty
    have := List.length_pos_iff.mpr alsoNonempty
    constructor
    · intro starts
      have same := apart long first short second back alsoNonempty starts
        (fun whole => by rw [← whole] at shorter; omega) ⟨front, whole.symm⟩
      rw [← same] at sizes
      omega
    · intro ends
      have same := apart short second long first front nonempty ⟨back, whole.symm⟩
        (fun whole => by rw [← whole] at sizes; omega) ends
      rw [← same] at shorter
      omega

/-- Nothing but blanks is left of allowed pieces when the entries are taken out longest first. -/
theorem residue_blank {entries : List String} (apart : NoOverlap entries)
    (usable : ∀ entry ∈ entries, entry ≠ "")
    (sorted : entries.Pairwise fun a b => b.toList.length ≤ a.toList.length)
    {pieces : List (List Char)}
    (allowed : ∀ piece ∈ pieces,
      (∃ entry ∈ entries, piece = entry.toList) ∨ ∃ c, isBlank c = true ∧ piece = [c]) :
    (residue entries pieces.flatten).all isBlank = true := by
  induction entries generalizing pieces with
  | nil =>
    rw [residue, List.foldl_nil, List.all_eq_true]
    intro c present
    obtain ⟨piece, among, inside⟩ := List.mem_flatten.mp present
    obtain ⟨_, none, -⟩ | ⟨blank, isBlank, rfl⟩ := allowed piece among
    · exact absurd none List.not_mem_nil
    · rwa [List.mem_singleton.mp inside]
  | cons entry entries ih =>
    have nonempty := toList_ne_nil (usable entry (List.mem_cons_self ..))
    obtain ⟨longest, sorted⟩ := List.pairwise_cons.mp sorted
    have fits : ∀ piece ∈ pieces, Fits entry.toList piece := by
      intro piece among
      obtain ⟨other, present, rfl⟩ | ⟨c, -, rfl⟩ := allowed piece among
      · refine fits_of_noOverlap apart (List.mem_cons_self ..) present ?_
        rcases List.mem_cons.mp present with rfl | later
        · exact Nat.le_refl _
        · exact longest other later
      · exact fits_of_length_one nonempty rfl
    obtain ⟨kept, sub, gone, left⟩ := strip_pieces nonempty fits
    rw [residue_cons, ← left]
    refine ih (apart.mono fun other => List.mem_cons_of_mem _)
      (fun other among => usable other (List.mem_cons_of_mem _ among)) sorted ?_
    intro piece among
    obtain ⟨other, present, rfl⟩ | blank := allowed piece (sub.mem among)
    · rcases List.mem_cons.mp present with rfl | later
      · exact absurd among gone
      · exact .inl ⟨other, later, rfl⟩
    · exact .inr blank

theorem stablySorted_longestFirst (entries : List String) :
    StablySorted (fun entry : String => OrderDual.toDual entry.length)
      (entries.filter fun entry => !entry.isEmpty) (longestFirst entries) :=
  stablySorted_mergeSort (fun _ _ => by rw [decide_eq_true_eq, OrderDual.toDual_le_toDual]) _

theorem pairwise_longestFirst (entries : List String) :
    (longestFirst entries).Pairwise fun a b => b.toList.length ≤ a.toList.length := by
  simpa only [String.length_toList, OrderDual.toDual_le_toDual] using
    (stablySorted_longestFirst entries).ordered

theorem bare?_join_eq_none {entries : List String} (apart : NoOverlap entries)
    {pieces : List String} (allowed : ∀ piece ∈ pieces, Allowed entries piece) :
    bare? (longestFirst entries) (String.join pieces) = none := by
  rw [bare?, if_pos]
  rw [String.toList_join, List.flatMap_def]
  refine residue_blank (apart.mono fun entry among => (mem_longestFirst.mp among).1)
    (fun entry among => (mem_longestFirst.mp among).2) (pairwise_longestFirst entries) ?_
  intro piece among
  obtain ⟨text, present, rfl⟩ := List.mem_map.mp among
  obtain entry | ⟨c, blank, rfl⟩ := allowed text present
  · exact .inl ⟨text, mem_longestFirst.mpr entry, rfl⟩
  · exact .inr ⟨c, blank, String.toList_singleton c⟩

theorem bare?_join_of_foreign {entries pieces : List String} {piece : String}
    (among : piece ∈ pieces) (foreign : Foreign entries piece) :
    bare? (longestFirst entries) (String.join pieces) = some (String.join pieces) := by
  obtain ⟨c, inside, visible, absent⟩ := foreign
  refine bare?_of_foreign ?_ visible fun entry present =>
    absent entry (mem_of_mem_longestFirst present)
  rw [String.toList_join]
  exact List.mem_flatMap.mpr ⟨piece, among, inside⟩

/-- If no two entries of an allowlist overlap, a text that is put together from entries and blanks,
in whatever order and number, is accepted, and one with a foreign piece among them is not. The
entries that apply by default do not overlap. -/
theorem composed_accepted_iff {entries : List String} (apart : NoOverlap entries) :
    (∀ pieces : List String, (∀ piece ∈ pieces, Allowed entries piece) →
        bare? (longestFirst entries) (String.join pieces) = none) ∧
      (∀ pieces : List String,
        (∀ piece ∈ pieces, Allowed entries piece ∨ Foreign entries piece) →
        (bare? (longestFirst entries) (String.join pieces) = none ↔
          ∀ piece ∈ pieces, Allowed entries piece)) ∧
      NoOverlap defaultEntries ∧
      ∀ pieces : List String, (∀ piece ∈ pieces, Allowed defaultEntries piece) →
        bare? Rule.default.allowlist (String.join pieces) = none := by
  refine ⟨fun pieces => bare?_join_eq_none apart, fun pieces either => ⟨fun accepted => ?_,
    bare?_join_eq_none apart⟩, noOverlap_defaultEntries,
    fun pieces => bare?_join_eq_none noOverlap_defaultEntries⟩
  intro piece among
  rcases either piece among with allowed | foreign
  · exact allowed
  · rw [bare?_join_of_foreign among foreign] at accepted
    exact absurd accepted (Option.some_ne_none _)

-- Entries that overlap can break each other up: what is cut here is the end of one piece with the
-- start of the next.
example : ¬ NoOverlap ["aab", "abd", "ca"] ∧
    bare? ["aab", "abd", "ca"] (String.join ["ca", "abd"]) = some "caabd" := by
  decide

/-- One entry is inside another here, so the order matters: as the entries are given, the short one
breaks the long one up. -/
theorem references_accepted :
    NoOverlap ["&", "&amp;", "amp"] ∧
      bare? (longestFirst ["&", "&amp;", "amp"]) (String.join ["&", "&amp;", " ", "amp", "&"]) =
        none ∧
      bare? ["&", "&amp;", "amp"] (String.join ["&", "&amp;", " ", "amp", "&"]) =
        some "&&amp; amp&" := by
  have apart : NoOverlap ["&", "&amp;", "amp"] := by decide
  refine ⟨apart, (composed_accepted_iff apart).1 _ ?_, by decide⟩
  have entry : ∀ piece ∈ ["&", "&amp;", "amp"], Allowed ["&", "&amp;", "amp"] piece := by
    intro piece among
    refine .inl ⟨among, ?_⟩
    rintro rfl
    exact absurd among (by decide)
  intro piece among
  by_cases blank : piece = " "
  · exact .inr ⟨' ', by decide, blank⟩
  · refine entry piece ?_
    simp only [List.mem_cons, List.not_mem_nil, or_false] at among ⊢
    tauto

end TemplateLint.Allowlist
