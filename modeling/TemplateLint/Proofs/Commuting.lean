import Mathlib
import TemplateLint.Proofs.InPlace
import TemplateLint.Proofs.RawReading

/-! # Insertions that commute

Texts are offered to an object under segments of which none leads through another's. No such offer
has a say in the answer to another, except that of two equal ones only the first is accepted. So the
object in the end is described without any order: it has the leaves from before and the texts that
would have been accepted at the start, and the objects on the way to them. Objects of one
description are the same up to the order of their members.
-/

namespace TemplateLint

/-! ## Objects by what keys lead to -/

/-- Keys lead to an object. -/
def Members.IsNode (members : Members) (path : List String) : Prop :=
  ∃ inner, (Json.object members).getAt? path = some (.object inner)

theorem Json.getAt?_object_singleton (members : Members) (key : String) :
    (Json.object members).getAt? [key] = members.get? key := by
  rw [Json.getAt?_object_cons]
  cases members.get? key <;> rfl

/-- Two objects are the same up to order if keys lead to the same leaves in both, and to objects in
both. -/
theorem Json.Same.of_getAt? {members others : Members} (proper : Proper (.object members))
    (otherProper : Proper (.object others))
    (leaves : ∀ path value, value.IsLeaf → ((Json.object members).getAt? path = some value ↔
      (Json.object others).getAt? path = some value))
    (nodes : ∀ path, members.IsNode path ↔ others.IsNode path) :
    Same (.object members) (.object others) := by
  induction whole : Json.object members using Json.induction generalizing members others with
  | step value ih =>
    subst whole
    refine .of_get? proper.distinct otherProper.distinct fun key => ?_
    cases here : members.get? key with
    | none =>
      cases there : others.get? key with
      | none => exact .none
      | some other =>
        exfalso
        rcases other.isLeaf_or_object with leaf | ⟨inner, rfl⟩
        · have found := (leaves [key] other leaf).mpr (by rwa [getAt?_object_singleton])
          rw [getAt?_object_singleton, here] at found
          cases found
        · obtain ⟨_, found⟩ := (nodes [key]).mpr ⟨inner, by rwa [getAt?_object_singleton]⟩
          rw [getAt?_object_singleton, here] at found
          cases found
    | some value =>
      rcases value.isLeaf_or_object with leaf | ⟨inner, rfl⟩
      · have there := (leaves [key] value leaf).mp (by rwa [getAt?_object_singleton])
        rw [getAt?_object_singleton] at there
        rw [there]
        exact .some (.refl (proper.of_get? here))
      · obtain ⟨inner', there⟩ := (nodes [key]).mp ⟨inner, by rwa [getAt?_object_singleton]⟩
        rw [getAt?_object_singleton] at there
        rw [there]
        refine .some (ih _ (mem_children_of_get? here) (proper.of_get? here)
          (otherProper.of_get? there) (fun path value leaf => ?_) (fun path => ?_) rfl)
        · have below := leaves (key :: path) value leaf
          rwa [Json.getAt?_object_cons, Json.getAt?_object_cons, here, there] at below
        · have below := nodes (key :: path)
          simp only [Members.IsNode, Json.getAt?_object_cons, here, there] at below
          exact below

namespace Members

variable {text : String} {keys path segments : List String}
  {members middle later updated : Members} {added more : List (List String × String)}

/-- On the way to anything there are objects. -/
theorem isNode_of_getAt?_append {rest : List String} {value : Json} (further : rest ≠ [])
    (found : (Json.object members).getAt? (path ++ rest) = some value) : members.IsNode path := by
  rw [Json.getAt?_append, Option.bind_eq_some_iff] at found
  obtain ⟨middle, here, below⟩ := found
  rcases middle.isLeaf_or_object with leaf | ⟨inner, rfl⟩
  · rw [leaf.getAt?_eq_none further] at below
    cases below
  · exact ⟨inner, here⟩

/-- Members that extend others by texts, with no more objects than lead to the texts. -/
structure GrowsBy (members later : Members) (added : List (List String × String)) : Prop extends
    members.Extends later added where
  nodes : ∀ path, later.IsNode path → members.IsNode path ∨
    ∃ keys text, (keys, text) ∈ added ∧ path <+: keys ∧ path ≠ keys

namespace GrowsBy

theorem refl (members : Members) : members.GrowsBy members [] where
  toExtends := .refl members
  nodes _ := .inl

theorem trans (first : members.GrowsBy middle added) (second : middle.GrowsBy later more) :
    members.GrowsBy later (added ++ more) where
  toExtends := first.toExtends.trans second.toExtends
  nodes path node := by
    rcases second.nodes path node with old | ⟨keys, text, among, way⟩
    · rcases first.nodes path old with older | ⟨keys, text, among, way⟩
      · exact .inl older
      · exact .inr ⟨keys, text, List.mem_append_left _ among, way⟩
    · exact .inr ⟨keys, text, List.mem_append_right _ among, way⟩

/-- Neither order nor repetition of the texts matters. -/
theorem congr (grows : members.GrowsBy later added)
    (alike : ∀ offer, offer ∈ added ↔ offer ∈ more) : members.GrowsBy later more where
  leaf_iff path value leaf := by
    simp only [grows.leaf_iff path value leaf, alike]
  objects := grows.objects
  fresh path text among := grows.fresh path text ((alike _).mpr among)
  nodes path node := by
    simpa only [alike] using grows.nodes path node

theorem isNode_iff (grows : members.GrowsBy later added) :
    later.IsNode path ↔ members.IsNode path ∨
      ∃ keys text, (keys, text) ∈ added ∧ path <+: keys ∧ path ≠ keys := by
  refine ⟨grows.nodes path, ?_⟩
  rintro (⟨inner, found⟩ | ⟨_, text, among, ⟨rest, rfl⟩, differ⟩)
  · obtain ⟨grown, still, _⟩ := grows.objects path inner found
    exact ⟨grown, still⟩
  · have found := (grows.leaf_iff _ _ (Json.isLeaf_string text)).mpr (.inr ⟨text, among, rfl⟩)
    refine isNode_of_getAt?_append ?_ found
    rintro rfl
    simp at differ

/-- Members that grow from the same by the same texts are the same up to order. -/
theorem same {other : Members} (grows : members.GrowsBy later added)
    (alsoGrows : members.GrowsBy other added) (proper : Json.Proper (.object later))
    (otherProper : Json.Proper (.object other)) : Json.Same (.object later) (.object other) := by
  refine .of_getAt? proper otherProper (fun path value leaf => ?_) fun path => ?_
  · rw [grows.leaf_iff path value leaf, alsoGrows.leaf_iff path value leaf]
  · rw [grows.isNode_iff, alsoGrows.isNode_iff]

end GrowsBy

namespace Added

theorem growsBy (added : Added text keys members updated) :
    members.GrowsBy updated [(keys, text)] where
  toExtends := added.extension
  nodes path := by
    rintro ⟨inner, found⟩
    rcases added.getAt?_cases found with old | ⟨_, ⟨⟩⟩ | ⟨below, _, some, rfl, _⟩
    · exact .inl ⟨inner, old⟩
    · exact .inr ⟨_, text, List.mem_singleton.mpr rfl, List.prefix_append .., by simpa using some⟩

theorem proper (added : Added text keys members updated) (proper : Json.Proper (.object members)) :
    Json.Proper (.object updated) := by
  induction added with
  | last fresh =>
    rw [← assign_of_fresh (get?_eq_none_iff.mp fresh)]
    exact proper.assign (.string text) _
  | beside fresh _ ih =>
    rw [← assign_of_fresh (get?_eq_none_iff.mp fresh)]
    exact proper.assign (ih (.object List.nodup_nil (List.forall_mem_nil _))) _
  | inside present _ ih => exact proper.assign (ih (proper.of_get? present)) _

end Added

/-! ## Offers that are apart -/

/-- Whether an offered text would be added. -/
def accepts (members : Members) (offer : List String × String) : Bool :=
  (members.offer offer.1 offer.2).1 = .ok .added

theorem offer_of_not_accepts {offer : List String × String}
    (refused : members.accepts offer = false) : (members.offer offer.1 offer.2).2 = members :=
  offer_unchanged (of_decide_eq_false refused)

theorem added_of_accepts {offer : List String × String} (accepted : members.accepts offer = true) :
    Added offer.2 offer.1 members (members.offer offer.1 offer.2).2 :=
  added_of_offer (of_decide_eq_true accepted)

/-- An offer has no say in the answer to one whose segments part from its own. -/
theorem offer_answer_beside {first second : List String × String}
    (apart : ¬ first.1 <+: second.1) (apart' : ¬ second.1 <+: first.1) :
    ((members.offer first.1 first.2).2.offer second.1 second.2).1 =
      (members.offer second.1 second.2).1 := by
  cases accepted : members.accepts first with
  | false => rw [offer_of_not_accepts accepted]
  | true =>
    have added := added_of_accepts accepted
    -- The new text is no front of the segments, and no other leaf has come.
    have leaves {front : List String} (within : front <+: second.1) {value : Json}
        (leaf : value.IsLeaf) : (Json.object members).getAt? front = some value ↔
          (Json.object (members.offer first.1 first.2).2).getAt? front = some value := by
      rw [added.leaf_iff leaf, or_iff_left]
      rintro ⟨rfl, -⟩
      exact apart within
    have blocked (front : List String) : Blocked members second.1 front ↔
        Blocked (members.offer first.1 first.2).2 second.1 front := by
      constructor <;> intro blocked <;> obtain ⟨value, found, leaf⟩ := blocked.leaf
      · exact { blocked with leaf := ⟨value, (leaves blocked.within leaf).mp found, leaf⟩ }
      · exact { blocked with leaf := ⟨value, (leaves blocked.within leaf).mpr found, leaf⟩ }
    have due := (members.offer_answers second.1 second.2).congr blocked
      (added.getAt?_beside apart' apart).symm
    exact (offer_answers ..).unique due

/-- The members after texts were offered one after another. -/
def offerAll (members : Members) (offers : List (List String × String)) : Members :=
  offers.foldl (fun members offer => (members.offer offer.1 offer.2).2) members

/-- No segments are a front of others, and equal ones come with equal texts. -/
def Apart (offers : List (List String × String)) : Prop :=
  ∀ first ∈ offers, ∀ second ∈ offers, first.1 <+: second.1 → first = second

instance (offers : List (List String × String)) : Decidable (Apart offers) :=
  inferInstanceAs (Decidable (∀ first ∈ offers, ∀ second ∈ offers,
    first.1 <+: second.1 → first = second))

theorem accepts_after {first second : List String × String} {offers : List (List String × String)}
    (apart : Apart offers) (here : first ∈ offers) (there : second ∈ offers)
    (differ : second ≠ first) :
    (members.offer first.1 first.2).2.accepts second = members.accepts second := by
  unfold accepts
  rw [offer_answer_beside (fun front => differ (apart _ here _ there front).symm)
    fun front => differ (apart _ there _ here front)]

/-- Offers that are apart come to what each of them would have come to at the start. -/
theorem offerAll_growsBy {offers : List (List String × String)} (apart : Apart offers) :
    members.GrowsBy (members.offerAll offers) (offers.filter members.accepts) := by
  induction offers generalizing members with
  | nil => exact .refl members
  | cons first rest ih =>
    have others : Apart rest := fun one among another amongToo =>
      apart one (List.mem_cons_of_mem _ among) another (List.mem_cons_of_mem _ amongToo)
    have run : (members.offer first.1 first.2).2.GrowsBy (members.offerAll (first :: rest)) _ :=
      ih others
    cases accepted : members.accepts first with
    | false =>
      rw [List.filter_cons_of_neg (by simp [accepted])]
      rwa [offer_of_not_accepts accepted] at run
    | true =>
      refine ((added_of_accepts accepted).growsBy.trans run).congr fun offer => ?_
      -- A repetition of the first offer is refused now, but counts with the first.
      by_cases same : offer = first
      · simp [same, accepted]
      · simp only [List.singleton_append, List.mem_cons, List.mem_filter, same, false_or]
        refine and_congr_right fun among => ?_
        rw [accepts_after apart (List.mem_cons_self ..) (List.mem_cons_of_mem _ among) same]

theorem offer_proper (proper : Json.Proper (.object members)) (offer : List String × String) :
    Json.Proper (.object (members.offer offer.1 offer.2).2) := by
  cases accepted : members.accepts offer with
  | false => rwa [offer_of_not_accepts accepted]
  | true => exact (added_of_accepts accepted).proper proper

theorem offerAll_proper (proper : Json.Proper (.object members))
    (offers : List (List String × String)) : Json.Proper (.object (members.offerAll offers)) := by
  induction offers generalizing members with
  | nil => exact proper
  | cons first rest ih => exact ih (offer_proper proper first)

/-- Offers that are apart come to the same in every order, up to the order of members. -/
theorem offerAll_same {offers order : List (List String × String)} (apart : Apart offers)
    (alike : order.Perm offers) (proper : Json.Proper (.object members)) :
    Json.Same (.object (members.offerAll order)) (.object (members.offerAll offers)) := by
  have apart' : Apart order := fun first among second amongToo =>
    apart first (alike.mem_iff.mp among) second (alike.mem_iff.mp amongToo)
  have grows : members.GrowsBy (members.offerAll order) (offers.filter members.accepts) :=
    (offerAll_growsBy apart').congr fun offer => (alike.filter members.accepts).mem_iff
  exact grows.same (offerAll_growsBy apart) (offerAll_proper proper order)
    (offerAll_proper proper offers)

/-- Offers under segments of which neither is a front of the other get the same answers in either
order and come to the same members up to order. An offer that is repeated changes nothing more, and
is answered as before, unless it was accepted: then the second of the two finds the entry of the
first. So offers of which no segments are a front of others, and equal segments have equal texts,
come to the same members up to order whichever way they are ordered. -/
theorem offers_commute (members : Members) (proper : Json.Proper (.object members)) :
    (∀ first second : List String × String, ¬ first.1 <+: second.1 → ¬ second.1 <+: first.1 →
      ((members.offer first.1 first.2).2.offer second.1 second.2).1 =
          (members.offer second.1 second.2).1 ∧
        ((members.offer second.1 second.2).2.offer first.1 first.2).1 =
          (members.offer first.1 first.2).1 ∧
        Json.Same (.object ((members.offer first.1 first.2).2.offer second.1 second.2).2)
          (.object ((members.offer second.1 second.2).2.offer first.1 first.2).2)) ∧
    (∀ segments text,
      (members.offer segments text).2.offer segments text =
        (if (members.offer segments text).1 = .ok .added then .ok .existing
          else (members.offer segments text).1, (members.offer segments text).2)) ∧
    ∀ offers order, Apart offers → order.Perm offers →
      Json.Same (.object (members.offerAll order)) (.object (members.offerAll offers)) := by
  refine ⟨fun first second apart apart' => ?_, fun segments text => ?_,
    fun offers order apart alike => offerAll_same apart alike proper⟩
  · refine ⟨offer_answer_beside apart apart', offer_answer_beside apart' apart, ?_⟩
    have pair : Apart [second, first] := by
      intro one among another amongToo front
      simp only [List.mem_cons, List.not_mem_nil, or_false] at among amongToo
      rcases among with rfl | rfl <;> rcases amongToo with rfl | rfl
      · rfl
      · exact absurd front apart'
      · exact absurd front apart
      · rfl
    exact offerAll_same pair (List.Perm.swap second first []) proper
  · split_ifs with accepted
    · exact offer_after_added accepted text
    · rw [offer_unchanged accepted]
      exact Prod.ext rfl (offer_unchanged accepted)

/-- Offers of which one has a text in its way, two share an object that is made for them, and one is
repeated. -/
def sampleOffers : List (List String × String) :=
  [(["o", "m"], "A"), (["n", "m"], "B"), (["a", "b"], "C"), (["n", "k"], "D"), (["o", "m"], "A")]

theorem sampleOffers_commute :
    Json.Proper (.object sampleOccupied) ∧ Apart sampleOffers ∧
    (sampleOccupied.offerAll sampleOffers).map Prod.fst = ["a", "o", "n"] ∧
    Json.Same (.object (sampleOccupied.offerAll sampleOffers.reverse))
      (.object (sampleOccupied.offerAll sampleOffers)) := by
  have proper : Json.Proper (.object sampleOccupied) := by
    refine .object (by decide) fun member among => ?_
    rcases List.mem_pair.mp among with rfl | rfl
    · exact .string "x"
    · exact .object List.nodup_nil (List.forall_mem_nil _)
  have apart : Apart sampleOffers := by decide
  obtain ⟨-, -, orders⟩ := offers_commute sampleOccupied proper
  exact ⟨proper, apart, by decide, orders _ _ apart (List.reverse_perm sampleOffers)⟩

end Members

end TemplateLint
