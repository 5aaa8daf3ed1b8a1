import Mathlib
import TemplateLint.Proofs.Listings

/-! # Sorted allowlists

An allowlist is sorted before it is used. What becomes of it can be said without sorting: it keeps
its nonempty entries, each as often as it is listed, has longer ones before shorter ones, and leaves
entries of one length as they were listed. Lengths are numbers of characters. Only one list is like
that, so sorting a sorted list again leaves it as it is.
-/

namespace TemplateLint.Allowlist

/-- A list of the nonempty entries, longest first, with those of one length as listed. -/
structure LongestFirst (entries sorted : List String) : Prop where
  perm : sorted.Perm (entries.filter fun entry => entry ≠ "")
  ordered : sorted.Pairwise fun a b => b.toList.length ≤ a.toList.length
  ties : KeepsTies (fun entry : String => entry.toList.length)
    (entries.filter fun entry => entry ≠ "") sorted

theorem filter_nonempty (entries : List String) :
    (entries.filter fun entry => !entry.isEmpty) = entries.filter fun entry => entry ≠ "" :=
  List.filter_congr fun entry _ => Bool.eq_iff_iff.mpr (by simp)

/-- Descending lengths are ascending ones in the dual order. -/
theorem stablySorted_iff {entries sorted : List String} :
    StablySorted (fun entry : String => OrderDual.toDual entry.length)
        (entries.filter fun entry => !entry.isEmpty) sorted ↔
      LongestFirst entries sorted := by
  have turned (items : List String) :
      KeepsTies (fun entry : String => OrderDual.toDual entry.length) items sorted ↔
        KeepsTies (fun entry : String => entry.toList.length) items sorted := by
    simp only [KeepsTies, OrderDual.toDual_inj, String.length_toList]
  rw [filter_nonempty]
  constructor
  · rintro ⟨ordered, ties⟩
    have keeps := (turned _).mp (keepsTies_iff.mpr ties)
    refine ⟨keeps.perm, ?_, keeps⟩
    simpa only [String.length_toList, OrderDual.toDual_le_toDual] using ordered
  · rintro ⟨-, ordered, keeps⟩
    refine ⟨?_, keepsTies_iff.mp ((turned _).mpr keeps)⟩
    simpa only [String.length_toList, OrderDual.toDual_le_toDual] using ordered

theorem longestFirst_longestFirst (entries : List String) :
    longestFirst (longestFirst entries) = longestFirst entries :=
  longestFirst_of_sorted (fun _ among => (mem_longestFirst.mp among).2) <| by
    simpa only [String.length_toList] using pairwise_longestFirst entries

/-- Sorting gives the one list that has the nonempty entries, each as often as it is listed, those of
more characters before those of fewer, and those of as many characters as they are listed. Sorting
again changes nothing. -/
theorem sorting_exact (entries : List String) :
    (∀ sorted, LongestFirst entries sorted ↔ sorted = longestFirst entries) ∧
      longestFirst (longestFirst entries) = longestFirst entries := by
  have own := stablySorted_longestFirst entries
  refine ⟨fun sorted => ⟨fun also => ?_, ?_⟩, longestFirst_longestFirst entries⟩
  · exact (stablySorted_iff.mpr also).unique own fun _ => rfl
  · rintro rfl
    exact stablySorted_iff.mp own

-- A dash is one character, although it takes three bytes, so it stays behind the longer entry; both
-- dashes are kept, and the entry between them stays there.
example : longestFirst ["—", "", "x", "ab", "—"] = ["ab", "—", "x", "—"] := by
  cbv

end TemplateLint.Allowlist
