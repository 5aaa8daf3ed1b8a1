import Mathlib
import TemplateLint.Proofs.Insertions

/-! # Insertion in place

A text can be inserted by going down from the outermost object, changing each object as it is
reached: one that is missing is made there and then, before anything is known of what is further
down. Once an object was made, everything below it is new, so nothing can be in the way any more.
Hence an insertion that fails or finds an entry has made nothing, and going down in place comes to
the same as `Members.insertAt`, which makes an object only after what goes into it. When each answer
is given is then read off the entries that are there before.
-/

namespace TemplateLint

/-! ## Keys below values -/

theorem Json.isLeaf_string (text : String) : (Json.string text).IsLeaf := by
  rintro _ ⟨⟩

theorem Json.isLeaf_or_object (value : Json) : value.IsLeaf ∨ ∃ members, value = .object members :=
  or_iff_not_imp_left.mpr not_forall_not.mp

theorem Json.IsLeaf.getAt?_eq_none {value : Json} (leaf : value.IsLeaf) {keys : List String}
    (some : keys ≠ []) : value.getAt? keys = none := by
  cases keys with
  | nil => exact absurd rfl some
  | cons key rest =>
    cases value with
    | object members => exact absurd rfl (leaf members)
    | _ => rfl

namespace Members

variable {text : String} {keys segments : List String} {members updated : Members}

theorem assign_of_get? {key : String} {value : Json} (present : get? members key = some value) :
    assign key value members = members := by
  induction members with
  | nil => cases present
  | cons head rest ih =>
    rcases head with ⟨name, old⟩
    rw [get?_cons] at present
    rw [assign]
    by_cases same : key = name
    · rw [if_pos same] at present
      rw [if_pos same.symm, Option.some.inj present, same]
    · rw [if_neg same] at present
      rw [if_neg (Ne.symm same), ih present]

theorem assign_append_member {key : String} (fresh : get? members key = none)
    (old value : Json) :
    assign key value (members ++ [(key, old)]) = members ++ [(key, value)] := by
  induction members with
  | nil => simp [assign]
  | cons head rest ih =>
    rcases head with ⟨name, other⟩
    rw [get?_cons] at fresh
    split_ifs at fresh with same
    rw [List.cons_append, assign, if_neg (Ne.symm same), ih fresh, List.cons_append]

/-! ## Going down -/

/-- The members with an object under a key, if there was nothing. -/
def ensure (key : String) (members : Members) : Members :=
  match get? members key with
  | none => members ++ [(key, .object [])]
  | some _ => members

/-- Go down to the object under keys and put a text there, if its place is free. The members are
those that there are when going down ends, for whatever reason. -/
def descend (text last : String) : List String → Members → Except String Insertion × Members
  | [], members =>
    match get? members last with
    | some _ => (.ok .existing, members)
    | none => (.ok .added, members ++ [(last, .string text)])
  | segment :: rest, members =>
    let entered := members.ensure segment
    match get? entered segment with
    | some (.object inner) =>
      let (answer, changed) := descend text last rest inner
      (answer, assign segment (.object changed) entered)
    | _ => (.error segment, entered)

/-- Insert a text in place. -/
def insertInPlace (members : Members) (segments : List String) (text : String) :
    Except String Insertion × Members :=
  match segments.getLast? with
  | none => (.ok .existing, members)
  | some last => descend text last segments.dropLast members

/-- The answer to a text that is offered under segments, and the members after it. -/
def offer (members : Members) (segments : List String) (text : String) :
    Except String Insertion × Members :=
  match insertAt text segments members with
  | .error segment => (.error segment, members)
  | .ok none => (.ok .existing, members)
  | .ok (some updated) => (.ok .added, updated)

/-- Below an object that was just made there is always a place. -/
theorem insertAt_nil (text : String) {keys : List String} (some : keys ≠ []) :
    ∃ inner, insertAt text keys [] = .ok (Option.some inner) := by
  induction keys with
  | nil => exact absurd rfl some
  | cons key rest ih =>
    cases rest with
    | nil => exact ⟨_, rfl⟩
    | cons next rest =>
      obtain ⟨inner, inserted⟩ := ih (List.cons_ne_nil next rest)
      refine ⟨[(key, .object inner)], ?_⟩
      rw [insertAt.eq_3 text [] key (next :: rest) (List.cons_ne_nil next rest), get?_nil]
      simp only [inserted]
      rfl

theorem descend_eq (text last : String) (parents : List String) (members : Members) :
    descend text last parents members = members.offer (parents ++ [last]) text := by
  induction parents generalizing members with
  | nil =>
    rw [descend, offer, List.nil_append, insertAt]
    cases get? members last <;> rfl
  | cons segment rest ih =>
    have more : rest ++ [last] ≠ [] := by simp
    rw [descend, offer, List.cons_append, insertAt.eq_3 text members segment _ more]
    cases found : get? members segment with
    | none =>
      -- The object that is made is empty, so the text goes in and the object is not made in vain.
      obtain ⟨inner, inserted⟩ := insertAt_nil text more
      have entered : get? (members.ensure segment) segment = some (.object []) := by
        simp [ensure, found, get?_append_member _ _ _ _ found]
      simp only [entered, ih, offer, inserted]
      rw [ensure, found]
      exact congrArg _ (assign_append_member found _ _)
    | some value =>
      have entered : members.ensure segment = members := by simp [ensure, found]
      cases value with
      | object inner =>
        simp only [entered, found, ih, offer]
        cases insertAt text (rest ++ [last]) inner with
        | error conflict => exact congrArg _ (assign_of_get? found)
        | ok result =>
          cases result with
          | none => exact congrArg _ (assign_of_get? found)
          | some changed => rfl
      | _ => simp only [entered, found]

/-- Going down in place does what adding does. -/
theorem insertInPlace_eq (members : Members) (segments : List String) (text : String) :
    members.insertInPlace segments text = members.offer segments text := by
  rw [insertInPlace]
  cases last : segments.getLast? with
  | none =>
    obtain rfl := List.getLast?_eq_none_iff.mp last
    rfl
  | some final =>
    obtain ⟨parents, rfl⟩ := List.getLast?_eq_some_iff.mp last
    simp only [List.dropLast_concat]
    exact descend_eq text final parents members

/-! ## When each answer is given -/

/-- A front of segments that leads to something in the way: it is not empty, not all of the
segments, and there is something that is no object. -/
structure Blocked (members : Members) (segments front : List String) : Prop where
  nonempty : front ≠ []
  within : front <+: segments
  short : front ≠ segments
  leaf : ∃ value, (Json.object members).getAt? front = some value ∧ value.IsLeaf

namespace Blocked

variable {front other : List String}

/-- Nothing is found further down. -/
theorem getAt?_eq_none (blocked : Blocked members segments front) (below : front <+: other)
    (further : front ≠ other) : (Json.object members).getAt? other = none := by
  obtain ⟨rest, rfl⟩ := below
  obtain ⟨value, found, leaf⟩ := blocked.leaf
  have more : rest ≠ [] := by
    rintro rfl
    simp at further
  rw [Json.getAt?_append, found, Option.bind_some, leaf.getAt?_eq_none more]

/-- Only one front leads to something in the way. -/
theorem eq (blocked : Blocked members segments front) (also : Blocked members segments other) :
    front = other := by
  by_contra differ
  obtain ⟨_, found, _⟩ := blocked.leaf
  obtain ⟨_, alsoFound, _⟩ := also.leaf
  rcases List.prefix_or_prefix_of_prefix blocked.within also.within with below | above
  · rw [blocked.getAt?_eq_none below differ] at alsoFound
    cases alsoFound
  · rw [also.getAt?_eq_none above (Ne.symm differ)] at found
    cases found

theorem cons {key : String} {inner : Members}
    (present : get? members key = some (.object inner))
    (blocked : Blocked inner segments front) :
    Blocked members (key :: segments) (key :: front) where
  nonempty := List.cons_ne_nil key front
  within := List.cons_prefix_cons.mpr ⟨rfl, blocked.within⟩
  short := fun same => blocked.short (List.cons.inj same).2
  leaf := by
    rw [Json.getAt?_object_cons, present]
    exact blocked.leaf

end Blocked

/-- A segment is answered because it ends a front that leads to something in the way. -/
theorem blocked_of_insertAt {segment : String}
    (conflict : insertAt text segments members = .error segment) :
    ∃ front, Blocked members segments front ∧ front.getLast? = some segment := by
  fun_induction insertAt text segments members with
  | case1 => cases conflict
  | case2 => cases conflict
  | case3 => cases conflict
  | case4 key rest members more fresh ih =>
    obtain ⟨inner, inserted⟩ := insertAt_nil text more
    rw [inserted] at conflict
    cases conflict
  | case5 key rest members more inner present ih =>
    cases inside : insertAt text rest inner with
    | ok result =>
      rw [inside] at conflict
      cases conflict
    | error other =>
      rw [inside] at conflict
      cases conflict
      obtain ⟨front, blocked, last⟩ := ih inside
      refine ⟨key :: front, blocked.cons present, ?_⟩
      rw [List.getLast?_cons, last]
      rfl
  | case6 key rest members more value leaf present =>
    obtain rfl : key = segment := Except.error.inj conflict
    refine ⟨[key], ⟨List.cons_ne_nil key [], ⟨rest, rfl⟩, ?_, value, ?_, ?_⟩, rfl⟩
    · intro same
      exact more (List.cons.inj same).2.symm
    · rw [Json.getAt?_object_cons, present]
      rfl
    · exact leaf

namespace Added

/-- A place is found only if no front of its keys leads to something in the way. -/
theorem not_blocked (added : Added text keys members updated) {front : List String} :
    ¬ Blocked members keys front := by
  intro blocked
  obtain ⟨value, found, leaf⟩ := blocked.leaf
  have still : Blocked updated keys front :=
    { blocked with leaf := ⟨value, (added.leaf_iff leaf).mpr (.inl found), leaf⟩ }
  have missing := still.getAt?_eq_none blocked.within blocked.short
  rw [added.getAt?] at missing
  cases missing

/-- What is neither on the way to the text nor below it is as before. -/
theorem getAt?_beside (added : Added text keys members updated) {path : List String}
    (above : ¬ path <+: keys) (below : ¬ keys <+: path) :
    (Json.object updated).getAt? path = (Json.object members).getAt? path := by
  induction added generalizing path with
  | @last key members fresh =>
    cases path with
    | nil => exact absurd List.nil_prefix above
    | cons first rest =>
      have differs : first ≠ key := by
        rintro rfl
        exact below (by simp)
      simp only [Json.getAt?_object_cons, get?_append_member _ _ _ _ fresh, if_neg differs]
  | @beside key keys members inner fresh _ ih =>
    cases path with
    | nil => exact absurd List.nil_prefix above
    | cons first rest =>
      simp only [Json.getAt?_object_cons, get?_append_member _ _ _ _ fresh]
      by_cases same : first = key
      · subst same
        rw [List.cons_prefix_cons] at above below
        have inside := ih (fun short => above ⟨rfl, short⟩) fun long => below ⟨rfl, long⟩
        rw [if_pos rfl, fresh, Option.bind_some, inside]
        cases rest with
        | nil => exact absurd ⟨rfl, List.nil_prefix⟩ above
        | cons => rfl
      · rw [if_neg same]
  | @inside key keys members inner updated present _ ih =>
    cases path with
    | nil => exact absurd List.nil_prefix above
    | cons first rest =>
      simp only [Json.getAt?_object_cons, get?_assign]
      by_cases same : first = key
      · subst same
        rw [List.cons_prefix_cons] at above below
        rw [if_pos rfl, present, Option.bind_some, Option.bind_some]
        exact ih (fun short => above ⟨rfl, short⟩) fun long => below ⟨rfl, long⟩
      · rw [if_neg same]

end Added

/-! ## Offers -/

theorem offer_of_error {segment : String}
    (conflict : insertAt text segments members = .error segment) :
    members.offer segments text = (.error segment, members) := by
  rw [offer, conflict]

theorem offer_of_none (present : insertAt text segments members = .ok none) :
    members.offer segments text = (.ok .existing, members) := by
  rw [offer, present]

theorem offer_of_some (inserted : insertAt text segments members = .ok (some updated)) :
    members.offer segments text = (.ok .added, updated) := by
  rw [offer, inserted]

/-- What can become of an offer, with what is known of the members then. -/
theorem offer_cases (members : Members) (segments : List String) (text : String) :
    (∃ segment front, members.offer segments text = (.error segment, members) ∧
      Blocked members segments front ∧ front.getLast? = some segment) ∨
    (members.offer segments text = (.ok .existing, members) ∧
      (segments = [] ∨ ((Json.object members).getAt? segments).isSome = true)) ∨
    ∃ updated, members.offer segments text = (.ok .added, updated) ∧
      Added text segments members updated := by
  cases inserted : insertAt text segments members with
  | error segment =>
    obtain ⟨front, blocked, last⟩ := blocked_of_insertAt inserted
    exact .inl ⟨segment, front, offer_of_error inserted, blocked, last⟩
  | ok result =>
    cases result with
    | none =>
      refine .inr (.inl ⟨offer_of_none inserted, ?_⟩)
      by_cases empty : segments = []
      · exact .inl empty
      · exact .inr (getAt?_of_insertAt_none inserted empty)
    | some updated =>
      exact .inr (.inr ⟨updated, offer_of_some inserted, added_of_insertAt inserted⟩)

/-- Nothing is in the way of what is there, or of no segments. -/
theorem Blocked.not_present {front : List String} (blocked : Blocked members segments front) :
    ¬ (segments = [] ∨ ((Json.object members).getAt? segments).isSome = true) := by
  rintro (rfl | present)
  · exact blocked.nonempty (List.prefix_nil.mp blocked.within)
  · rw [blocked.getAt?_eq_none blocked.within blocked.short] at present
    cases present

theorem Added.not_present (added : Added text segments members updated) :
    ¬ (segments = [] ∨ ((Json.object members).getAt? segments).isSome = true) := by
  rintro (rfl | present)
  · exact added.keys_ne_nil rfl
  · rw [added.fresh] at present
    cases present

/-- The answer that is due to a text under segments, by what is there. -/
inductive Answers (members : Members) (segments : List String) :
    Except String Insertion → Prop where
  | conflict {front : List String} {segment : String} (blocked : Blocked members segments front)
      (last : front.getLast? = some segment) : Answers members segments (.error segment)
  | existing
      (present : segments = [] ∨ ((Json.object members).getAt? segments).isSome = true) :
      Answers members segments (.ok .existing)
  | added (unblocked : ¬ ∃ front, Blocked members segments front)
      (absent : ¬ (segments = [] ∨ ((Json.object members).getAt? segments).isSome = true)) :
      Answers members segments (.ok .added)

namespace Answers

variable {answer other : Except String Insertion}

theorem unique (due : Answers members segments answer) (also : Answers members segments other) :
    answer = other := by
  cases due with
  | conflict blocked last =>
    cases also with
    | conflict blocked' last' =>
      obtain rfl := blocked.eq blocked'
      rw [Option.some.inj (last.symm.trans last')]
    | existing present => exact absurd present blocked.not_present
    | added unblocked => exact absurd ⟨_, blocked⟩ unblocked
  | existing present =>
    cases also with
    | conflict blocked => exact absurd present blocked.not_present
    | existing => rfl
    | added _ absent => exact absurd present absent
  | added unblocked absent =>
    cases also with
    | conflict blocked => exact absurd ⟨_, blocked⟩ unblocked
    | existing present => exact absurd present absent
    | added => rfl

/-- The answer depends on what is in the way and on what is there. -/
theorem congr {others : Members}
    (blocked : ∀ front, Blocked members segments front ↔ Blocked others segments front)
    (same : (Json.object members).getAt? segments = (Json.object others).getAt? segments)
    (due : Answers members segments answer) : Answers others segments answer := by
  cases due with
  | conflict found last => exact .conflict ((blocked _).mp found) last
  | existing present => exact .existing (same ▸ present)
  | added unblocked absent =>
    exact .added (by simpa only [blocked] using unblocked) (same ▸ absent)

end Answers

/-- An offer gets the answer that is due. -/
theorem offer_answers (members : Members) (segments : List String) (text : String) :
    Answers members segments (members.offer segments text).1 := by
  rcases members.offer_cases segments text with
    ⟨segment, front, answer, blocked, last⟩ | ⟨answer, present⟩ | ⟨updated, answer, added⟩
  · rw [answer]
    exact .conflict blocked last
  · rw [answer]
    exact .existing present
  · rw [answer]
    exact .added (not_exists.mpr fun _ => added.not_blocked) added.not_present

theorem offer_eq_error_iff {segment : String} :
    (members.offer segments text).1 = .error segment ↔
      ∃ front, Blocked members segments front ∧ front.getLast? = some segment := by
  have due := members.offer_answers segments text
  constructor
  · intro answer
    rw [answer] at due
    cases due with
    | conflict blocked last => exact ⟨_, blocked, last⟩
  · rintro ⟨front, blocked, last⟩
    exact due.unique (.conflict blocked last)

theorem offer_eq_existing_iff :
    (members.offer segments text).1 = .ok .existing ↔
      segments = [] ∨ ((Json.object members).getAt? segments).isSome = true := by
  have due := members.offer_answers segments text
  constructor
  · intro answer
    rw [answer] at due
    cases due with
    | existing present => exact present
  · intro present
    exact due.unique (.existing present)

theorem offer_eq_added_iff :
    (members.offer segments text).1 = .ok .added ↔
      (¬ ∃ front, Blocked members segments front) ∧
        ¬ (segments = [] ∨ ((Json.object members).getAt? segments).isSome = true) := by
  have due := members.offer_answers segments text
  constructor
  · intro answer
    rw [answer] at due
    cases due with
    | added unblocked absent => exact ⟨unblocked, absent⟩
  · rintro ⟨unblocked, absent⟩
    exact due.unique (.added unblocked absent)

theorem insertAt_eq_none_iff :
    insertAt text segments members = .ok none ↔
      segments = [] ∨ ((Json.object members).getAt? segments).isSome = true := by
  rw [← @offer_eq_existing_iff text]
  cases inserted : insertAt text segments members with
  | error segment => simp [offer_of_error inserted]
  | ok result =>
    cases result with
    | none => simp [offer_of_none inserted]
    | some updated => simp [offer_of_some inserted]

theorem added_of_offer (accepted : (members.offer segments text).1 = .ok .added) :
    Added text segments members (members.offer segments text).2 := by
  rcases members.offer_cases segments text with
    ⟨other, front, answer, -⟩ | ⟨answer, -⟩ | ⟨updated, answer, added⟩
  · rw [answer] at accepted
    cases accepted
  · rw [answer] at accepted
    cases accepted
  · rwa [answer]

/-- Members change only if a text is added. -/
theorem offer_unchanged (refused : (members.offer segments text).1 ≠ .ok .added) :
    (members.offer segments text).2 = members := by
  rcases members.offer_cases segments text with
    ⟨other, front, answer, -⟩ | ⟨answer, -⟩ | ⟨updated, answer, added⟩
  · rw [answer]
  · rw [answer]
  · exact absurd (congrArg Prod.fst answer) refused

/-- Once a text was added, its segments are taken for every text. -/
theorem offer_after_added (accepted : (members.offer segments text).1 = .ok .added)
    (other : String) : (members.offer segments text).2.offer segments other =
      (.ok .existing, (members.offer segments text).2) := by
  have taken : ((members.offer segments text).2.offer segments other).1 = .ok .existing := by
    rw [offer_eq_existing_iff, (added_of_offer accepted).getAt?]
    exact .inr rfl
  exact Prod.ext taken (offer_unchanged (by rw [taken]; rintro ⟨⟩))

/-- An insertion in place fails at a segment exactly if the shortest front of the segments that
leads to something in the way ends in it, and finds an entry exactly if there are no segments or
something is there. Otherwise the text is added, and is found under its segments, while all that is
neither on the way there nor below is as before. Unless the text is added, the members are as they
were. -/
theorem insertInPlace_exact (members : Members) (segments : List String) (text : String) :
    members.insertInPlace segments text = members.offer segments text ∧
    (∀ segment, (members.insertInPlace segments text).1 = .error segment ↔
      ∃ front, Blocked members segments front ∧
        (∀ other, Blocked members segments other → front.length ≤ other.length) ∧
        front.getLast? = some segment) ∧
    ((members.insertInPlace segments text).1 = .ok .existing ↔
      segments = [] ∨ ((Json.object members).getAt? segments).isSome = true) ∧
    ((members.insertInPlace segments text).1 = .ok .added ↔
      (¬ ∃ front, Blocked members segments front) ∧
        ¬ (segments = [] ∨ ((Json.object members).getAt? segments).isSome = true)) ∧
    ((members.insertInPlace segments text).1 = .ok .added →
      (Json.object (members.insertInPlace segments text).2).getAt? segments =
          some (.string text) ∧
        ∀ path, ¬ path <+: segments → ¬ segments <+: path →
          (Json.object (members.insertInPlace segments text).2).getAt? path =
            (Json.object members).getAt? path) ∧
    ((members.insertInPlace segments text).1 ≠ .ok .added →
      (members.insertInPlace segments text).2 = members) := by
  rw [insertInPlace_eq]
  refine ⟨rfl, fun segment => ?_, offer_eq_existing_iff, offer_eq_added_iff, fun accepted => ?_,
    offer_unchanged⟩
  · rw [offer_eq_error_iff]
    refine exists_congr fun front => and_congr_right fun blocked => ?_
    have shortest : ∀ other, Blocked members segments other → front.length ≤ other.length :=
      fun other also => (congrArg List.length (blocked.eq also)).le
    exact ⟨fun last => ⟨shortest, last⟩, And.right⟩
  · have added := added_of_offer accepted
    exact ⟨added.getAt?, fun path => added.getAt?_beside⟩

/-- Members with a text, and with an object that is empty. -/
def sampleOccupied : Members := [("a", .string "x"), ("o", .object [])]

theorem sampleOccupied_insertInPlace :
    (sampleOccupied.insertInPlace ["a", "b", "c"] "T").1 = .error "a" ∧
    (sampleOccupied.insertInPlace ["a", "b", "c"] "T").2 = sampleOccupied ∧
    (sampleOccupied.insertInPlace ["o", "n", "m"] "T").1 = .ok .added ∧
    (Json.object (sampleOccupied.insertInPlace ["o", "n", "m"] "T").2).getAt? ["o", "n", "m"] =
      some (.string "T") ∧
    (Json.object (sampleOccupied.insertInPlace ["o", "n", "m"] "T").2).getAt? ["a"] =
      some (.string "x") := by
  have refused : (sampleOccupied.insertInPlace ["a", "b", "c"] "T").1 = .error "a" := rfl
  have accepted : (sampleOccupied.insertInPlace ["o", "n", "m"] "T").1 = .ok .added := rfl
  obtain ⟨-, -, -, -, -, unchanged⟩ := insertInPlace_exact sampleOccupied ["a", "b", "c"] "T"
  obtain ⟨-, -, -, -, added, -⟩ := insertInPlace_exact sampleOccupied ["o", "n", "m"] "T"
  obtain ⟨found, others⟩ := added accepted
  refine ⟨refused, unchanged (by rw [refused]; rintro ⟨⟩), accepted, found, ?_⟩
  exact others ["a"] (by decide) (by decide)

end Members

end TemplateLint
