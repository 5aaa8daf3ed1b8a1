import Mathlib

/-! # Stable order

Several lists of this library are sorted by what their items have in common with a linear order:
issues by their places, entries by their lengths, paths by their components. Such a list is in order
by a key, and items of the same key stand as they stood before. These two conditions leave no choice,
so a list that is sorted in this way depends on nothing but the order within each key.
-/

namespace TemplateLint

variable {α κ : Type*} [LinearOrder κ]

/-- The items of each key are the same in two lists, and in the same order. -/
def SameTies (key : α → κ) (first second : List α) : Prop :=
  ∀ value, (first.filter fun item => key item = value) =
    second.filter fun item => key item = value

variable {key : α → κ}

namespace SameTies

variable {first second third : List α}

theorem symm (ties : SameTies key first second) : SameTies key second first :=
  fun value => (ties value).symm

theorem trans (ties : SameTies key first second) (also : SameTies key second third) :
    SameTies key first third :=
  fun value => (ties value).trans (also value)

theorem mem_iff (ties : SameTies key first second) (item : α) : item ∈ first ↔ item ∈ second := by
  simpa using congrArg (item ∈ ·) (ties (key item))

/-- The items of one key may be told in any way. -/
theorem filter_eq (ties : SameTies key first second) {value : κ} {choose : α → Bool}
    (chosen : ∀ item, choose item = true ↔ key item = value) :
    first.filter choose = second.filter choose := by
  have same : choose = fun item => decide (key item = value) := by
    funext item
    rw [Bool.eq_iff_iff, chosen, decide_eq_true_eq]
  rw [same]
  exact ties value

theorem eq_nil (ties : SameTies key [] second) : second = [] :=
  List.eq_nil_iff_forall_not_mem.mpr fun item among =>
    absurd ((ties.mem_iff item).mpr among) List.not_mem_nil

/-- Ties are left when an item is taken out that is the first of its key on both sides. -/
theorem of_cons {head : α} {rest before after : List α}
    (ties : SameTies key (head :: rest) (before ++ head :: after))
    (others : ∀ item ∈ before, key item ≠ key head) : SameTies key rest (before ++ after) := by
  intro value
  have whole := ties value
  rw [List.filter_append] at whole ⊢
  by_cases own : key head = value
  · have none : (before.filter fun item => key item = value) = [] := by
      refine List.filter_eq_nil_iff.mpr fun item among => ?_
      rw [← own, decide_eq_true_eq]
      exact others item among
    rw [none, List.nil_append, List.filter_cons_of_pos (by simp [own]),
      List.filter_cons_of_pos (by simp [own])] at whole
    rw [none, List.nil_append]
    exact (List.cons.inj whole).2
  · rwa [List.filter_cons_of_neg (by simp [own]), List.filter_cons_of_neg (by simp [own])] at whole

end SameTies

/-- A list in order of a key, in which the items of each key stand as they do in another list. -/
structure StablySorted (key : α → κ) (items sorted : List α) : Prop where
  ordered : sorted.Pairwise fun a b => key a ≤ key b
  ties : SameTies key sorted items

/-- Lists in order are the same if they have the same items of each key. -/
theorem eq_of_ordered_of_ties {first second : List α}
    (ordered : first.Pairwise fun a b => key a ≤ key b)
    (alsoOrdered : second.Pairwise fun a b => key a ≤ key b)
    (ties : SameTies key first second) : first = second := by
  induction first generalizing second with
  | nil => exact ties.eq_nil.symm
  | cons head rest ih =>
    have inSecond := (ties.mem_iff head).mp (List.mem_cons_self ..)
    obtain ⟨other, others, rfl⟩ := List.exists_cons_of_ne_nil (List.ne_nil_of_mem inSecond)
    have inFirst := (ties.mem_iff other).mpr (List.mem_cons_self ..)
    -- Each head is least in its own list and is a member of the other one.
    have leFirst : ∀ item ∈ head :: rest, key head ≤ key item :=
      List.forall_mem_cons.mpr ⟨le_refl _, (List.pairwise_cons.mp ordered).1⟩
    have leSecond : ∀ item ∈ other :: others, key other ≤ key item :=
      List.forall_mem_cons.mpr ⟨le_refl _, (List.pairwise_cons.mp alsoOrdered).1⟩
    have same := le_antisymm (leFirst other inFirst) (leSecond head inSecond)
    obtain rfl : head = other := by
      have heads := ties (key head)
      rw [List.filter_cons_of_pos (by simp), List.filter_cons_of_pos (by simp [same])] at heads
      exact (List.cons.inj heads).1
    have left : SameTies key rest ([] ++ others) := ties.of_cons (List.forall_mem_nil _)
    exact congrArg (head :: ·) (ih ordered.tail alsoOrdered.tail left)

theorem StablySorted.unique {items others sorted again : List α}
    (stable : StablySorted key items sorted) (also : StablySorted key others again)
    (ties : SameTies key items others) : sorted = again :=
  eq_of_ordered_of_ties stable.ordered also.ordered
    ((stable.ties.trans ties).trans also.ties.symm)

/-- Merging sorts in this way, if items are compared by their keys. -/
theorem stablySorted_mergeSort {le : α → α → Bool} (le_iff : ∀ a b, le a b = true ↔ key a ≤ key b)
    (items : List α) : StablySorted key items (items.mergeSort le) := by
  have trans (a b c : α) (first : le a b = true) (second : le b c = true) : le a c = true := by
    rw [le_iff] at first second ⊢
    exact first.trans second
  have total (a b : α) : (le a b || le b a) = true := by
    rw [Bool.or_eq_true, le_iff, le_iff]
    exact le_total _ _
  refine ⟨(List.pairwise_mergeSort trans total items).imp (le_iff _ _).mp, fun value => ?_⟩
  -- The items of a key are in order already, so sorting keeps them as a sublist.
  set tied := fun item => decide (key item = value) with among
  have ordered : (items.filter tied).Pairwise fun a b => le a b = true := by
    refine List.pairwise_of_forall_mem_list fun a left b right => ?_
    have own := (List.mem_filter.mp left).2
    have other := (List.mem_filter.mp right).2
    simp only [among, decide_eq_true_eq] at own other
    rw [le_iff, own, other]
  have kept := (List.sublist_mergeSort trans total ordered List.filter_sublist).filter tied
  rw [List.filter_filter] at kept
  simp only [Bool.and_self] at kept
  exact (kept.eq_of_length ((List.mergeSort_perm items le).filter tied).length_eq.symm).symm

/-! ## Numbered items

That ties are kept can also be said of each item by itself, and then equal items have to be told
apart. It would not do to look at pairs of items: in `abab` and `abba` the same ones stand before each
other.
-/

/-- The items of a list in an arrangement that keeps the order of those with the same key. Every item
takes the number of its place along. -/
def KeepsTies (key : α → κ) (items arranged : List α) : Prop :=
  ∃ numbered : List (α × Nat), numbered.Perm items.zipIdx ∧ numbered.map Prod.fst = arranged ∧
    numbered.Pairwise fun a b => key a.1 = key b.1 → a.2 < b.2

theorem pairwise_zipIdx (items : List α) : items.zipIdx.Pairwise fun a b => a.2 < b.2 := by
  rw [← List.pairwise_map, List.zipIdx_map_snd]
  exact List.pairwise_lt_range'

theorem filter_map_fst (value : κ) (numbered : List (α × Nat)) :
    (numbered.map Prod.fst).filter (fun item => key item = value) =
      (numbered.filter fun pair => key pair.1 = value).map Prod.fst :=
  List.filter_map

namespace KeepsTies

variable {items arranged : List α}

omit [LinearOrder κ] in
theorem perm (keeps : KeepsTies key items arranged) : arranged.Perm items := by
  obtain ⟨numbered, perm, rfl, -⟩ := keeps
  simpa only [List.zipIdx_map_fst] using perm.map Prod.fst

/-- Before and after, the numbered items of one key are in the order of their numbers. -/
theorem sameTies (keeps : KeepsTies key items arranged) : SameTies key arranged items := by
  obtain ⟨numbered, perm, rfl, inTurn⟩ := keeps
  intro value
  have turns : (numbered.filter fun pair => key pair.1 = value).Pairwise fun a b => a.2 < b.2 := by
    refine List.pairwise_filter.mpr (inTurn.imp fun {a b} first own other => first ?_)
    rw [decide_eq_true_eq] at own other
    exact own.trans other.symm
  have same := (perm.filter fun pair => key pair.1 = value).eq_of_pairwise
    (fun a b _ _ first second => absurd first second.asymm) turns ((pairwise_zipIdx items).filter _)
  rw [filter_map_fst, same, ← filter_map_fst, List.zipIdx_map_fst]

end KeepsTies

/-- Items whose numbers increase can be brought into any arrangement that has the same ties. -/
theorem SameTies.exists_numbered {numbers : List (α × Nat)} {arranged : List α}
    (ties : SameTies key arranged (numbers.map Prod.fst))
    (increasing : numbers.Pairwise fun a b => a.2 < b.2) :
    ∃ numbered : List (α × Nat), numbered.Perm numbers ∧ numbered.map Prod.fst = arranged ∧
      numbered.Pairwise fun a b => key a.1 = key b.1 → a.2 < b.2 := by
  induction arranged generalizing numbers with
  | nil =>
    obtain rfl := List.map_eq_nil_iff.mp ties.eq_nil
    exact ⟨[], .nil, rfl, .nil⟩
  | cons head rest ih =>
    -- The head is the first of its key among the numbered items too, and it is taken out there.
    have own := ties (key head)
    rw [List.filter_cons_of_pos (by simp), filter_map_fst] at own
    obtain ⟨pair, pairs, selected, rfl, -⟩ := List.map_eq_cons_iff.mp own.symm
    obtain ⟨before, after, rfl, others, -, -⟩ := List.filter_eq_cons_iff.mp selected
    simp only [decide_eq_true_eq] at others
    have left : SameTies key rest ((before ++ after).map Prod.fst) := by
      rw [List.map_append, List.map_cons] at ties
      rw [List.map_append]
      exact ties.of_cons (List.forall_mem_map.mpr others)
    have fewer := increasing.sublist ((List.sublist_cons_self pair after).append_left before)
    obtain ⟨numbered, perm, rfl, inTurn⟩ := ih left fewer
    refine ⟨pair :: numbered, (perm.cons pair).trans List.perm_middle.symm, rfl,
      List.pairwise_cons.mpr ⟨fun other among same => ?_, inTurn⟩⟩
    rcases List.mem_append.mp (perm.mem_iff.mp among) with early | late
    · exact absurd same.symm (others other early)
    · exact (List.pairwise_cons.mp (List.pairwise_append.mp increasing).2.1).1 other late

/-- Ties are kept item by item just if the items of each key are the same list before and after. -/
theorem keepsTies_iff {items arranged : List α} :
    KeepsTies key items arranged ↔ SameTies key arranged items := by
  refine ⟨KeepsTies.sameTies, fun ties => SameTies.exists_numbered ?_ (pairwise_zipIdx items)⟩
  rwa [List.zipIdx_map_fst]

end TemplateLint
