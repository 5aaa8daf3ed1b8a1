import Mathlib
import TemplateLint.Proofs.Files

/-! # JSON values

An object is a map: the order of its members does not matter, and reading never gives two members
one key. `Json.Proper` is the invariant of values that are read, `Json.Same` is equality up to the
order of members, and `Json.induction` is the induction that goes down to the items of arrays and
the values of members.
-/

namespace TemplateLint

theorem forall₂_getElem? {α β : Type} {related : α → β → Prop} {items : List α} {others : List β}
    {item : α} {other : β} {i : Nat} (each : List.Forall₂ related items others)
    (here : items[i]? = some item) (there : others[i]? = some other) : related item other := by
  obtain ⟨bound, rfl⟩ := List.getElem?_eq_some_iff.mp here
  obtain ⟨bound', rfl⟩ := List.getElem?_eq_some_iff.mp there
  exact each.get bound bound'

namespace Members

variable {members others : Members} {key : String} {value : Json}

/-- The members of some keys that have a value. -/
def select (keys : List String) (find : String → Option Json) : Members :=
  keys.filterMap fun key => (find key).map fun value => (key, value)

/-! ## Lookup -/

theorem get?_nil (key : String) : get? [] key = none := rfl

theorem get?_cons (name key : String) (value : Json) (rest : Members) :
    get? ((name, value) :: rest) key = if key = name then some value else get? rest key :=
  lookup_cons_ite name key value rest

theorem get?_append (members others : Members) (key : String) :
    get? (members ++ others) key = (get? members key).or (get? others key) :=
  List.lookup_append

theorem get?_append_member (members : Members) (key other : String) (value : Json)
    (fresh : get? members key = none) :
    get? (members ++ [(key, value)]) other =
      if other = key then some value else get? members other := by
  unfold get? at fresh ⊢
  by_cases same : other = key
  · simp [List.lookup_append, same, fresh]
  · simp [List.lookup_append, lookup_cons_ite, same]

theorem get?_assign (members : Members) (key other : String) (value : Json) :
    get? (assign key value members) other =
      if other = key then some value else get? members other := by
  induction members with
  | nil => exact lookup_cons_ite key other value []
  | cons head rest ih =>
    rcases head with ⟨name, old⟩
    unfold get? at ih ⊢
    rw [assign]
    by_cases here : name = key
    · subst here
      simp only [if_true, lookup_cons_ite]
      split_ifs <;> rfl
    · simp only [here, if_false, lookup_cons_ite, ih]
      split_ifs with same another
      · exact absurd (same.symm.trans another) here
      · rfl
      · rfl
      · rfl

theorem get?_filter (keep : String → Bool) (members : Members) (key : String) :
    get? (members.filter fun member => keep member.1) key =
      if keep key = true then get? members key else none := by
  induction members with
  | nil => simp [get?_nil]
  | cons head rest ih =>
    rcases head with ⟨name, value⟩
    rw [List.filter_cons, get?_cons]
    by_cases same : key = name
    · subst same
      by_cases kept : keep key = true
      · rw [if_pos kept, if_pos kept, get?_cons, if_pos rfl, if_pos rfl]
      · rw [if_neg kept, if_neg kept, ih, if_neg kept]
    · rw [if_neg same, ← ih]
      split_ifs
      · rw [get?_cons, if_neg same]
      · rfl

theorem get?_map (change : String → Json → Json) (members : Members) (key : String) :
    get? (members.map fun member => (member.1, change member.1 member.2)) key =
      (get? members key).map (change key) := by
  induction members with
  | nil => rfl
  | cons head rest ih =>
    rcases head with ⟨name, value⟩
    rw [List.map_cons, get?_cons, get?_cons, ih]
    split_ifs with same
    · rw [same]; rfl
    · rfl

theorem get?_eq_none_iff {members : Members} {key : String} :
    get? members key = none ↔ key ∉ members.map Prod.fst := by
  simp only [get?, List.lookup_eq_none_iff, List.mem_map, not_exists, not_and, bne_iff_ne]
  exact forall₂_congr fun _ _ => ne_comm

theorem mem_of_get? {members : Members} {key : String} {value : Json}
    (present : get? members key = some value) : (key, value) ∈ members := by
  obtain ⟨before, after, rfl, _⟩ := List.lookup_eq_some_iff.mp present
  simp

theorem get?_of_mem (distinct : (members.map Prod.fst).Nodup) (among : (key, value) ∈ members) :
    get? members key = some value := by
  induction members with
  | nil => cases among
  | cons head rest ih =>
    rcases head with ⟨name, other⟩
    rw [List.map_cons, List.nodup_cons] at distinct
    rw [get?_cons]
    rcases List.mem_cons.mp among with here | later
    · obtain ⟨rfl, rfl⟩ := Prod.mk.inj here
      rw [if_pos rfl]
    · have differs : key ≠ name := fun same =>
        distinct.1 (List.mem_map.mpr ⟨_, later, same⟩)
      rw [if_neg differs]
      exact ih distinct.2 later

theorem get?_filter_of_distinct {keep : String × Json → Bool}
    (distinct : (members.map Prod.fst).Nodup) (key : String) :
    get? (members.filter keep) key = (get? members key).filter fun value => keep (key, value) := by
  cases found : get? members key with
  | none =>
    rw [Option.filter_none, get?_eq_none_iff]
    rw [get?_eq_none_iff] at found
    intro among
    obtain ⟨member, kept, same⟩ := List.mem_map.mp among
    exact found (List.mem_map.mpr ⟨member, (List.mem_filter.mp kept).1, same⟩)
  | some value =>
    have filtered : ((members.filter keep).map Prod.fst).Nodup :=
      (List.filter_sublist.map Prod.fst).nodup distinct
    rw [Option.filter_some]
    split_ifs with kept
    · exact get?_of_mem filtered (List.mem_filter.mpr ⟨mem_of_get? found, kept⟩)
    · rw [get?_eq_none_iff]
      intro among
      obtain ⟨⟨name, other⟩, stays, rfl⟩ := List.mem_map.mp among
      obtain ⟨there, kept'⟩ := List.mem_filter.mp stays
      obtain rfl := Option.some.inj ((get?_of_mem distinct there).symm.trans found)
      exact kept kept'

theorem get?_select (keys : List String) (find : String → Option Json) (key : String) :
    get? (select keys find) key = if key ∈ keys then find key else none := by
  induction keys with
  | nil => rfl
  | cons first rest ih =>
    rw [select] at ih ⊢
    by_cases same : key = first
    · subst same
      cases found : find key with
      | none => simp [found, ih]
      | some value => simp [found, get?_cons]
    · cases found : find first with
      | none => simp [found, ih, same]
      | some value => simp [found, get?_cons, ih, same]

theorem map_fst_select_sublist (keys : List String) (find : String → Option Json) :
    ((select keys find).map Prod.fst).Sublist keys := by
  induction keys with
  | nil => exact .slnil
  | cons first rest ih =>
    rw [select] at ih ⊢
    cases found : find first with
    | none => simpa [found] using ih.cons first
    | some value => simpa [found] using ih

theorem map_fst_assign {members : Members} {key : String} (present : key ∈ members.map Prod.fst)
    (value : Json) : (assign key value members).map Prod.fst = members.map Prod.fst := by
  induction members with
  | nil => simp at present
  | cons item members ih =>
    rcases item with ⟨other, old⟩
    rw [assign]
    split_ifs with same
    · rw [List.map_cons, List.map_cons, same]
    · have later : key ∈ members.map Prod.fst := by
        simpa [Ne.symm same] using present
      rw [List.map_cons, List.map_cons, ih later]

theorem mem_assign {members : Members} {key : String} {value : Json} {item : String × Json}
    (among : item ∈ assign key value members) : item = (key, value) ∨ item ∈ members := by
  induction members with
  | nil => exact .inl (List.mem_singleton.mp among)
  | cons head members ih =>
    rcases head with ⟨other, old⟩
    rw [assign] at among
    split_ifs at among with same
    · rcases List.mem_cons.mp among with here | later
      · exact .inl here
      · exact .inr (List.mem_cons_of_mem _ later)
    · rcases List.mem_cons.mp among with here | later
      · exact .inr (here ▸ List.mem_cons_self ..)
      · exact (ih later).imp_right (List.mem_cons_of_mem _)

end Members

namespace Json

/-! ## Induction -/

/-- The items of an array, or the values of the members of an object. -/
def children : Json → List Json
  | .array items => items
  | .object members => members.map Prod.snd
  | _ => []

theorem sizeOf_lt_of_mem_children {value child : Json} (among : child ∈ value.children) :
    sizeOf child < sizeOf value := by
  cases value with
  | array items =>
    have := List.sizeOf_lt_of_mem (show child ∈ items from among)
    simp only [array.sizeOf_spec]
    omega
  | object members =>
    obtain ⟨⟨key, _⟩, member, rfl⟩ := List.mem_map.mp among
    have := List.sizeOf_lt_of_mem member
    simp only [Prod.mk.sizeOf_spec, object.sizeOf_spec] at this ⊢
    omega
  | _ => cases among

/-- What holds of a value if it holds of its children holds of all values. -/
theorem induction {motive : Json → Prop}
    (step : ∀ value, (∀ child ∈ value.children, motive child) → motive value) (value : Json) :
    motive value :=
  step value fun child among =>
    have := sizeOf_lt_of_mem_children among
    induction step child
termination_by sizeOf value

theorem mem_children_of_get? {members : Members} {key : String} {value : Json}
    (present : members.get? key = some value) : value ∈ (Json.object members).children :=
  List.mem_map_of_mem (Members.mem_of_get? present)

/-! ## Values that are read -/

/-- A value as reading gives it: no object has two members of one key, and integers are of 64
bits. -/
inductive Proper : Json → Prop where
  | null : Proper .null
  | bool (value : Bool) : Proper (.bool value)
  | string (text : String) : Proper (.string text)
  | real (value : Number.Binary64) : Proper (.number (.real value))
  | integer {value : Int} (low : -2 ^ 63 ≤ value) (high : value < 2 ^ 64) :
      Proper (.number (.integer value))
  | array {items : List Json} (each : ∀ item ∈ items, Proper item) : Proper (.array items)
  | object {members : Members} (distinct : (members.map Prod.fst).Nodup)
      (each : ∀ member ∈ members, Proper member.2) : Proper (.object members)

namespace Proper

variable {members : Members} {key : String} {value child : Json}

theorem distinct (proper : Proper (.object members)) : (members.map Prod.fst).Nodup := by
  cases proper with
  | object distinct _ => exact distinct

theorem of_mem_children (proper : value.Proper) (among : child ∈ value.children) :
    child.Proper := by
  cases proper with
  | array each => exact each child among
  | object _ each =>
    obtain ⟨member, present, rfl⟩ := List.mem_map.mp among
    exact each member present
  | _ => cases among

theorem of_get? (proper : Proper (.object members)) (present : members.get? key = some value) :
    value.Proper :=
  proper.of_mem_children (mem_children_of_get? present)

end Proper

/-! ## Equality up to the order of members -/

/-- Two values are the same up to the order of the members of their objects. -/
inductive Same : Json → Json → Prop where
  | null : Same .null .null
  | bool (value : Bool) : Same (.bool value) (.bool value)
  | number (value : Json.Number) : Same (.number value) (.number value)
  | string (text : String) : Same (.string text) (.string text)
  | array {items others : List Json} (length : items.length = others.length)
      (each : ∀ (i : Nat) (item other : Json), items[i]? = some item → others[i]? = some other →
        Same item other) :
      Same (.array items) (.array others)
  | object {members others : Members} (distinct : (members.map Prod.fst).Nodup)
      (otherDistinct : (others.map Prod.fst).Nodup)
      (keys : ∀ key, key ∈ members.map Prod.fst ↔ key ∈ others.map Prod.fst)
      (each : ∀ key value other, members.get? key = some value → others.get? key = some other →
        Same value other) : Same (.object members) (.object others)

theorem Same.refl {value : Json} (proper : value.Proper) : Same value value := by
  induction proper with
  | null => exact .null
  | bool value => exact .bool value
  | string text => exact .string text
  | real value => exact .number _
  | integer => exact .number _
  | array _ ih =>
    refine .array rfl fun i item other here there => ?_
    obtain rfl := Option.some.inj (here.symm.trans there)
    exact ih item (List.mem_of_getElem? here)
  | object distinct _ ih =>
    refine .object distinct distinct (fun _ => Iff.rfl) fun key value other here there => ?_
    obtain rfl := Option.some.inj (here.symm.trans there)
    exact ih _ (Members.mem_of_get? here)

theorem Same.symm {value other : Json} (same : Same value other) : Same other value := by
  induction same with
  | null => exact .null
  | bool value => exact .bool value
  | number value => exact .number value
  | string text => exact .string text
  | array length _ ih =>
    exact .array length.symm fun i item other here there => ih i other item there here
  | object distinct otherDistinct keys _ ih =>
    exact .object otherDistinct distinct (fun key => (keys key).symm)
      fun key value other here there => ih key other value there here

/-- Two objects are the same if they have the same members by their keys. -/
theorem Same.of_get? {members others : Members} (distinct : (members.map Prod.fst).Nodup)
    (otherDistinct : (others.map Prod.fst).Nodup)
    (each : ∀ key, Option.Rel Same (members.get? key) (others.get? key)) :
    Same (.object members) (.object others) := by
  refine .object distinct otherDistinct (fun key => ?_) fun key value other here there => ?_
  · have absent : members.get? key = none ↔ others.get? key = none := by
      have rel := each key
      revert rel
      generalize members.get? key = first
      generalize others.get? key = second
      rintro ⟨⟩ <;> simp
    rwa [Members.get?_eq_none_iff, Members.get?_eq_none_iff, not_iff_not] at absent
  · have rel := each key
    rw [here, there] at rel
    cases rel with
    | some same => exact same

end Json

end TemplateLint
