import Mathlib
import TemplateLint.Proofs.Composition

/-! # The order of an allowlist

Entries are taken out longest first, so the order in which they are listed only matters among those
of one length. Occurrences of entries of one length that do not overlap lie apart, and cuts commute:
if they go on until none of these entries occurs, the end is the same in every order. They need not
go on so far. Every entry is taken out until it is gone and then not looked at again, and it may
come back when an entry listed behind it is taken out of its middle. So two listings leave the same
text of a text if no entry comes back in either.
-/

namespace TemplateLint.Allowlist

open Relation (ReflGen ReflTransGen)

variable {entries others : List String} {text first second : List Char}

/-! ## Cuts by entries of one length -/

/-- An occurrence of one of the entries is taken out. -/
def CutByOne (entries : List String) (text next : List Char) : Prop :=
  ∃ entry ∈ entries, Cut entry.toList text next

/-- Two occurrences of entries of one length are the same, or the later one starts behind the
other. -/
theorem same_or_behind (apart : NoOverlap entries) {a b : String} (among : a ∈ entries)
    (amongToo : b ∈ entries) (level : a.toList.length = b.toList.length)
    {between behind behindToo : List Char}
    (whole : a.toList ++ behind = between ++ (b.toList ++ behindToo)) :
    (between = [] ∧ a = b ∧ behind = behindToo) ∨
      ∃ gap, between = a.toList ++ gap ∧ behind = gap ++ (b.toList ++ behindToo) := by
  obtain ⟨gap, reached, rest⟩ | ⟨common, reached, rest⟩ := List.append_eq_append_iff.mp whole
  · exact .inr ⟨gap, reached, rest⟩
  rcases eq_or_ne between [] with rfl | moved
  · rw [List.nil_append] at whole
    obtain ⟨same, left⟩ := List.append_inj whole level
    exact .inl ⟨rfl, String.toList_inj.mp same, left⟩
  -- The second occurrence starts inside the first, so what they have in common is empty.
  have shorter : common.length < b.toList.length := by
    have size := List.length_pos_iff.mpr moved
    rw [← level, reached, List.length_append]
    omega
  rcases eq_or_ne common [] with rfl | shared
  · exact .inr ⟨[], by simpa using reached.symm, by simpa using rest.symm⟩
  have starts : common <+: b.toList :=
    List.prefix_of_prefix_length_le ⟨behind, rest.symm⟩ (List.prefix_append ..) shorter.le
  have same := apart b amongToo a among common shared starts
    (fun whole => by rw [whole] at shorter; omega) ⟨between, reached.symm⟩
  rw [same, level] at shorter
  omega

/-- Cuts that start from one text meet again after at most one cut more on each side. -/
theorem CutByOne.meet (apart : NoOverlap entries) {size : Nat}
    (level : ∀ entry ∈ entries, entry.toList.length = size) (cut : CutByOne entries text first)
    (other : CutByOne entries text second) :
    ∃ last, ReflGen (CutByOne entries) first last ∧
      ReflTransGen (CutByOne entries) second last := by
  -- The case in which the first cut does not start behind the second serves both.
  have onward : ∀ (before : List Char) {a b : String} {between behind behindToo : List Char},
      a ∈ entries → b ∈ entries → a.toList ++ behind = between ++ (b.toList ++ behindToo) →
      before ++ behind = before ++ between ++ behindToo ∨
        ∃ last, CutByOne entries (before ++ behind) last ∧
          CutByOne entries (before ++ between ++ behindToo) last := by
    intro before a b between behind behindToo among amongToo whole
    obtain ⟨rfl, -, rfl⟩ | ⟨gap, rfl, rfl⟩ := same_or_behind apart among amongToo
      ((level a among).trans (level b amongToo).symm) whole
    · exact .inl (by simp)
    · refine .inr ⟨before ++ gap ++ behindToo, ⟨b, amongToo, ?_⟩, ⟨a, among, ?_⟩⟩
      · have cut : Cut b.toList _ _ := .mk (before ++ gap) behindToo
        simpa only [List.append_assoc] using cut
      · have cut : Cut a.toList _ _ := .mk before (gap ++ behindToo)
        simpa only [List.append_assoc] using cut
  obtain ⟨a, among, cut⟩ := cut
  obtain ⟨b, amongToo, other⟩ := other
  cases cut with
  | mk before behind =>
    generalize whole : before ++ (a.toList ++ behind) = text at other
    cases other with
    | mk beforeToo behindToo =>
      obtain ⟨between, rfl, rest⟩ | ⟨between, rfl, rest⟩ := List.append_eq_append_iff.mp whole
      · obtain same | ⟨last, here, there⟩ := onward before among amongToo rest
        · exact ⟨_, .refl, same ▸ .refl⟩
        · exact ⟨last, .single here, .single there⟩
      · obtain same | ⟨last, here, there⟩ := onward beforeToo amongToo among rest
        · exact ⟨_, .refl, same ▸ .refl⟩
        · exact ⟨last, .single there, .single here⟩

/-- A text in which no entry occurs cannot be cut. -/
theorem eq_of_cuts (absent : ∀ entry ∈ entries, occursIn entry.toList first = false)
    (cuts : ReflTransGen (CutByOne entries) first second) : first = second := by
  obtain same | ⟨_, ⟨entry, among, cut⟩, -⟩ := cuts.cases_head
  · exact same
  · have occurs : occursIn entry.toList first = true := by
      cases cut with
      | mk before behind => exact (occursIn_iff ..).mpr ⟨before, behind, by simp⟩
    rw [absent entry among] at occurs
    exact absurd occurs Bool.false_ne_true

/-- Cuts that go on until no entry occurs come to one end. -/
theorem eq_of_cuts_of_cuts (apart : NoOverlap entries) {size : Nat}
    (level : ∀ entry ∈ entries, entry.toList.length = size)
    (cuts : ReflTransGen (CutByOne entries) text first)
    (others : ReflTransGen (CutByOne entries) text second)
    (absent : ∀ entry ∈ entries, occursIn entry.toList first = false)
    (absentToo : ∀ entry ∈ entries, occursIn entry.toList second = false) : first = second := by
  obtain ⟨last, here, there⟩ :=
    Relation.church_rosser (fun _ _ _ => CutByOne.meet apart level) cuts others
  rw [eq_of_cuts absent here, eq_of_cuts absentToo there]

theorem residue_cuts (among : ∀ entry ∈ others, entry ∈ entries) (text : List Char) :
    ReflTransGen (CutByOne entries) text (residue others text) := by
  induction others generalizing text with
  | nil => exact .refl
  | cons entry others ih =>
    have cuts : ReflTransGen (CutByOne entries) text (strip entry.toList text) :=
      ReflTransGen.mono (fun _ _ cut => ⟨entry, among entry (List.mem_cons_self ..), cut⟩) _ _
        (strip_cuts entry.toList text)
    rw [residue_cons]
    exact cuts.trans (ih (fun other later => among other (List.mem_cons_of_mem _ later)) _)

/-- Two listings of entries of one length leave the same if none occurs in what either leaves. -/
theorem residue_eq_of_absent (apart : NoOverlap entries) {size : Nat}
    (level : ∀ entry ∈ entries, entry.toList.length = size) (alike : entries.Perm others)
    (absent : ∀ entry ∈ entries, occursIn entry.toList (residue entries text) = false)
    (absentToo : ∀ entry ∈ entries, occursIn entry.toList (residue others text) = false) :
    residue entries text = residue others text :=
  eq_of_cuts_of_cuts apart level (residue_cuts (fun _ among => among) text)
    (residue_cuts (fun _ among => alike.mem_iff.mpr among) text) absent absentToo

theorem residue_append (entries others : List String) (text : List Char) :
    residue (entries ++ others) text = residue others (residue entries text) :=
  List.foldl_append

/-! ## One length after another -/

/-- The nonempty entries of a length, as they are listed. -/
def ofLength (entries : List String) (size : Nat) : List String :=
  entries.filter fun entry => !entry.isEmpty && entry.length == size

/-- What is left of a text when the entries of at least a length have been taken out. -/
def leftAt (entries : List String) (size : Nat) (text : List Char) : List Char :=
  residue ((longestFirst entries).filter fun entry => size ≤ entry.length) text

/-- No entry comes back: none occurs in what is left when the entries of its length have been taken
out. -/
def Settles (entries : List String) (text : List Char) : Prop :=
  ∀ entry ∈ entries, entry ≠ "" → occursIn entry.toList (leftAt entries entry.length text) = false

theorem mem_ofLength {entry : String} {size : Nat} :
    entry ∈ ofLength entries size ↔ entry ∈ entries ∧ entry ≠ "" ∧ entry.length = size := by
  simp [ofLength]

/-- Sorting keeps the order of the entries of one length. -/
theorem filter_longestFirst (entries : List String) (size : Nat) :
    ((longestFirst entries).filter fun entry => entry.length == size) = ofLength entries size := by
  have ties := (stablySorted_longestFirst entries).ties (OrderDual.toDual size)
  simp only [OrderDual.toDual_inj, List.filter_filter] at ties
  simp only [ofLength, beq_eq_decide, ties, Bool.and_comm]

/-- In a list that is sorted by length, the entries of at least a length end with those of just that
length. -/
theorem filter_le_eq_append (size : Nat)
    (sorted : entries.Pairwise fun a b => b.toList.length ≤ a.toList.length) :
    (entries.filter fun entry => size ≤ entry.length) =
      (entries.filter fun entry => size < entry.length) ++
        entries.filter fun entry => entry.length == size := by
  induction entries with
  | nil => rfl
  | cons entry entries ih =>
    obtain ⟨longest, sorted⟩ := List.pairwise_cons.mp sorted
    rcases lt_trichotomy entry.length size with below | here | above
    · simp [below.not_ge, below.not_gt, below.ne, ih sorted]
    · -- No longer entry follows.
      have none : (entries.filter fun other => size < other.length) = [] := by
        refine List.filter_eq_nil_iff.mpr fun other among => ?_
        have bound := longest other among
        rw [String.length_toList, String.length_toList, here] at bound
        simpa using bound
      have rest := ih sorted
      rw [none, List.nil_append] at rest
      simp only [List.filter_cons, here, le_refl, lt_irrefl, decide_true, decide_false,
        beq_self_eq_true, if_true, Bool.false_eq_true, if_false, none, rest, List.nil_append]
    · simp [above, above.le, above.ne', ih sorted]

/-- What is left at a length is what its entries leave of what is left at the next one. -/
theorem leftAt_eq (entries : List String) (size : Nat) (text : List Char) :
    leftAt entries size text =
      residue (ofLength entries size) (leftAt entries (size + 1) text) := by
  rw [leftAt, filter_le_eq_append size (pairwise_longestFirst entries), residue_append,
    filter_longestFirst]
  rfl

/-- A list of nonempty entries that is sorted by length stays as it is. -/
theorem longestFirst_of_sorted (usable : ∀ entry ∈ entries, entry ≠ "")
    (sorted : entries.Pairwise fun a b => b.length ≤ a.length) :
    longestFirst entries = entries := by
  have all : (entries.filter fun entry => !entry.isEmpty) = entries :=
    List.filter_eq_self.mpr fun entry among => by simpa using usable entry among
  rw [longestFirst, all]
  exact List.mergeSort_of_pairwise (by simpa using sorted)

theorem leftAt_zero (entries : List String) (text : List Char) :
    leftAt entries 0 text = residue (longestFirst entries) text := by
  simp [leftAt]

/-- Beyond the longest entry nothing has been taken out. -/
theorem leftAt_of_long {size : Nat} (long : ∀ entry ∈ entries, entry.length < size)
    (text : List Char) : leftAt entries size text = text := by
  have none : ((longestFirst entries).filter fun entry => size ≤ entry.length) = [] := by
    refine List.filter_eq_nil_iff.mpr fun entry among => ?_
    have := long entry (mem_of_mem_longestFirst among)
    simpa using this
  rw [leftAt, none]
  rfl

/-- The longest entries first: what holds beyond all entries and goes on from a length to the one
below holds at every length. -/
theorem length_induction (entries : List String) {motive : Nat → Prop}
    (beyond : ∀ size, (∀ entry ∈ entries, entry.length < size) → motive size)
    (below : ∀ size, motive (size + 1) → motive size) (size : Nat) : motive size := by
  obtain ⟨bound, long⟩ : ∃ bound, ∀ entry ∈ entries, entry.length < bound :=
    ⟨(entries.map String.length).sum + 1, fun entry among =>
      Nat.lt_succ_of_le (List.le_sum_of_mem (List.mem_map_of_mem among))⟩
  obtain high | low := Nat.le_total bound size
  · exact beyond size fun entry among => (long entry among).trans_le high
  · exact Nat.decreasingInduction (fun n _ => below n) (beyond bound long) low

/-! ## Two listings -/

theorem noOverlap_ofLength (apart : NoOverlap entries) (size : Nat) :
    NoOverlap (ofLength entries size) :=
  apart.mono fun _ among => (mem_ofLength.mp among).1

theorem length_of_mem_ofLength {entry : String} {size : Nat}
    (among : entry ∈ ofLength entries size) : entry.toList.length = size :=
  (String.length_toList ..).trans (mem_ofLength.mp among).2.2

/-- Two listings leave the same at every length if, at every length, their entries leave the same of
what is left before. -/
theorem leftAt_eq_of_residue_eq (alike : entries.Perm others)
    (level : ∀ size, leftAt entries (size + 1) text = leftAt others (size + 1) text →
      residue (ofLength entries size) (leftAt entries (size + 1) text) =
        residue (ofLength others size) (leftAt entries (size + 1) text)) (size : Nat) :
    leftAt entries size text = leftAt others size text := by
  induction size using length_induction entries with
  | beyond size long =>
    rw [leftAt_of_long long, leftAt_of_long fun entry among => long entry (alike.mem_iff.mpr among)]
  | below size ih => rw [leftAt_eq entries, leftAt_eq others, level size ih, ih]

/-- Two listings in neither of which an entry comes back leave the same at every length. -/
theorem leftAt_eq_of_settles (apart : NoOverlap entries) (alike : entries.Perm others)
    (settled : Settles entries text) (settledToo : Settles others text) (size : Nat) :
    leftAt entries size text = leftAt others size text := by
  refine leftAt_eq_of_residue_eq alike (fun size ih => ?_) size
  refine residue_eq_of_absent (noOverlap_ofLength apart size) (fun _ => length_of_mem_ofLength)
    (alike.filter _) (fun entry among => ?_) fun entry among => ?_
  · rw [← leftAt_eq]
    obtain ⟨listed, nonempty, rfl⟩ := mem_ofLength.mp among
    exact settled entry listed nonempty
  · rw [ih, ← leftAt_eq]
    obtain ⟨listed, nonempty, rfl⟩ := mem_ofLength.mp among
    exact settledToo entry (alike.mem_iff.mp listed) nonempty

/-- An entry that is listed last does not come back. -/
theorem occursIn_leftAt_concat {entry : String} (nonempty : entry ≠ "") (entries : List String)
    (text : List Char) :
    occursIn entry.toList (leftAt (entries ++ [entry]) entry.length text) = false := by
  have last : ofLength (entries ++ [entry]) entry.length =
      ofLength entries entry.length ++ [entry] := by
    simp [ofLength, nonempty]
  rw [leftAt_eq, last, residue_append]
  exact occursIn_strip (toList_ne_nil nonempty) _

/-- If all listings leave the same at every length, no entry comes back in any. -/
theorem settles_of_leftAt_eq
    (same : ∀ others, entries.Perm others → ∀ size,
      leftAt others size text = leftAt entries size text)
    (alike : entries.Perm others) : Settles others text := by
  intro entry among nonempty
  have rearranged : others.Perm (others.erase entry ++ [entry]) :=
    (List.perm_cons_erase among).trans (List.perm_append_singleton entry _).symm
  rw [same others alike, ← same _ (alike.trans rearranged)]
  exact occursIn_leftAt_concat nonempty _ text

/-! ## Single characters -/

/-- A single character that has been taken out of a text is not in what is left of it. -/
theorem occursIn_residue_of_single {entry : String} (single : entry.toList.length = 1)
    (listed : entry ∈ entries) (text : List Char) :
    occursIn entry.toList (residue entries text) = false := by
  obtain ⟨c, single⟩ := List.length_eq_one_iff.mp single
  induction entries generalizing text with
  | nil => cases listed
  | cons other entries ih =>
    rw [residue_cons]
    rcases List.mem_cons.mp listed with rfl | later
    · have gone := occursIn_strip (List.cons_ne_nil c []) text
      rw [single]
      rw [← Bool.not_eq_true, occursIn_iff, List.singleton_infix_iff] at gone ⊢
      exact fun present => gone ((residue_sublist entries _).mem present)
    · exact ih later _

/-- Two listings leave the same if they agree on the order of the entries of each length from two
characters on. -/
theorem leftAt_eq_of_order (apart : NoOverlap entries) (alike : entries.Perm others)
    (order : ∀ size, 2 ≤ size → ofLength entries size = ofLength others size) (size : Nat) :
    leftAt entries size text = leftAt others size text := by
  refine leftAt_eq_of_residue_eq alike (fun size _ => ?_) size
  rcases Nat.lt_or_ge size 2 with short | long
  · -- Single characters never come back; there is no shorter entry.
    have single : ∀ entry ∈ ofLength entries size, entry.toList.length = 1 := by
      intro entry among
      have size_pos := List.length_pos_iff.mpr (toList_ne_nil (mem_ofLength.mp among).2.1)
      have level := length_of_mem_ofLength among
      omega
    refine residue_eq_of_absent (noOverlap_ofLength apart size) single (alike.filter _)
      (fun entry among => occursIn_residue_of_single (single entry among) among _)
      fun entry among => occursIn_residue_of_single (single entry among) ?_ _
    exact (alike.filter _).mem_iff.mp among
  · rw [order size long]

/-! ## Bare text -/

theorem bare?_eq_of_leftAt_eq {raw : String}
    (same : ∀ size, leftAt entries size raw.toList = leftAt others size raw.toList) :
    bare? (longestFirst entries) raw = bare? (longestFirst others) raw := by
  rw [bare?, bare?, ← leftAt_zero, ← leftAt_zero, same]

/-- If entries do not overlap, the order in which they are listed does not matter for a text as long
as no entry comes back: two listings then leave the same at every length, and agree on whether the
text is bare. No weaker condition on a text makes what is left at every length the same for all
listings. For every text, only the order among entries of one length of two or more characters
matters. -/
theorem order_irrelevant_of_settles (apart : NoOverlap entries) :
    (∀ (others : List String) (raw : String), entries.Perm others →
        Settles entries raw.toList → Settles others raw.toList →
        (∀ size, leftAt entries size raw.toList = leftAt others size raw.toList) ∧
          bare? (longestFirst entries) raw = bare? (longestFirst others) raw) ∧
      (∀ raw : String,
        (∀ others, entries.Perm others → Settles others raw.toList) ↔
          ∀ others, entries.Perm others → ∀ size,
            leftAt others size raw.toList = leftAt entries size raw.toList) ∧
      ∀ (others : List String) (raw : String), entries.Perm others →
        (∀ size, 2 ≤ size → ofLength entries size = ofLength others size) →
        bare? (longestFirst entries) raw = bare? (longestFirst others) raw := by
  refine ⟨fun others raw alike settled settledToo => ?_,
    fun raw => ⟨fun settled others alike size => ?_,
      fun same others alike => settles_of_leftAt_eq same alike⟩,
    fun others raw alike order => bare?_eq_of_leftAt_eq (leftAt_eq_of_order apart alike order)⟩
  · have same := leftAt_eq_of_settles apart alike settled settledToo
    exact ⟨same, bare?_eq_of_leftAt_eq same⟩
  · exact (leftAt_eq_of_settles apart alike (settled entries (.refl _)) (settled others alike)
      size).symm

/-- The two character references have one length. For the first text they can change places, since
neither stands inside the other; for the second they keep their order. -/
theorem references_in_either_order :
    NoOverlap ["&lt;", "&gt;", "&"] ∧ ["&lt;", "&gt;", "&"].Perm ["&gt;", "&lt;", "&"] ∧
      Settles ["&lt;", "&gt;", "&"] "&&lt;&&gt;gt; a".toList ∧
      Settles ["&gt;", "&lt;", "&"] "&&lt;&&gt;gt; a".toList ∧
      bare? (longestFirst ["&lt;", "&gt;", "&"]) "&&lt;&&gt;gt; a" =
        bare? (longestFirst ["&gt;", "&lt;", "&"]) "&&lt;&&gt;gt; a" ∧
      bare? (longestFirst ["&lt;", "&gt;", "&"]) "&l&gt;t;" =
        bare? (longestFirst ["&", "&lt;", "&gt;"]) "&l&gt;t;" := by
  have apart : NoOverlap ["&lt;", "&gt;", "&"] := by decide
  have alike : ["&lt;", "&gt;", "&"].Perm ["&gt;", "&lt;", "&"] := by decide
  have settled : Settles ["&lt;", "&gt;", "&"] "&&lt;&&gt;gt; a".toList := by
    unfold Settles leftAt
    rw [longestFirst_of_sorted (by decide) (by decide)]
    decide
  have settledToo : Settles ["&gt;", "&lt;", "&"] "&&lt;&&gt;gt; a".toList := by
    unfold Settles leftAt
    rw [longestFirst_of_sorted (by decide) (by decide)]
    decide
  have order : ∀ size, 2 ≤ size →
      ofLength ["&lt;", "&gt;", "&"] size = ofLength ["&", "&lt;", "&gt;"] size := by
    intro size long
    have short : ("&".length == size) = false := beq_false_of_ne (ne_of_lt long)
    simp [ofLength, List.filter_cons, short]
  obtain ⟨either, -, kept⟩ := order_irrelevant_of_settles apart
  exact ⟨apart, alike, settled, settledToo, (either _ _ alike settled settledToo).2,
    kept _ _ (by decide) order⟩

/-- One entry stands in the middle of the other here, and the order decides: the outer one comes
back if it was taken out before the inner one. -/
theorem order_decides_on_nested :
    NoOverlap ["ab", "cd"] ∧ ["ab", "cd"].Perm ["cd", "ab"] ∧
      bare? (longestFirst ["ab", "cd"]) "acdb" = some "acdb" ∧
      bare? (longestFirst ["cd", "ab"]) "acdb" = none := by
  rw [longestFirst_of_sorted (by decide) (by decide),
    longestFirst_of_sorted (by decide) (by decide)]
  decide

end TemplateLint.Allowlist
