import Mathlib
import TemplateLint.Proofs.StableOrder
import TemplateLint.Proofs.Values
import TemplateLint.Rule.Decode

/-! # Configured rules

The members of a configuration are taken one after another into a draft, and the first that does not
fit ends the reading. `Rule.Shape` says which values are accepted, and `Rule.Configures` which rule
an object stands for, by the values of its keys alone. Both have no regard to the order of members,
so neither has the reading.
-/

namespace TemplateLint

/-! ## Sets of texts as lists -/

/-- A list has the texts of another one, each once and in increasing order. -/
structure IsSetOf (set texts : List String) : Prop where
  increasing : set.Pairwise (· < ·)
  mem_iff (text : String) : text ∈ set ↔ text ∈ texts

theorem IsSetOf.unique {set other texts : List String} (first : IsSetOf set texts)
    (second : IsSetOf other texts) : set = other :=
  first.increasing.eq_of_mem_iff second.increasing fun text =>
    (first.mem_iff text).trans (second.mem_iff text).symm

/-- The texts that start a list come off a loop that leaves repetitions out. -/
theorem eraseRepsBy_loop_eq {α : Type} (alike : α → α → Bool) (first : α) (rest done : List α) :
    List.eraseRepsBy.loop alike first rest done =
      done.reverse ++ List.eraseRepsBy.loop alike first rest [] := by
  induction rest generalizing first done with
  | nil => simp [List.eraseRepsBy.loop]
  | cons next rest ih =>
    rw [List.eraseRepsBy.loop, List.eraseRepsBy.loop]
    cases alike first next with
    | true => exact ih first done
    | false =>
      rw [ih next (first :: done), ih next [first]]
      simp

theorem eraseReps_cons_cons (first next : String) (rest : List String) :
    (first :: next :: rest).eraseReps =
      if first = next then (first :: rest).eraseReps else first :: (next :: rest).eraseReps := by
  by_cases same : first = next
  · rw [if_pos same, List.eraseReps, List.eraseRepsBy, List.eraseRepsBy.loop, same,
      beq_self_eq_true]
    rfl
  · rw [if_neg same, List.eraseReps, List.eraseRepsBy, List.eraseRepsBy.loop, beq_false_of_ne same]
    exact eraseRepsBy_loop_eq ..

/-- Leaving repetitions out of a list in order leaves a set. -/
theorem isSetOf_eraseReps {texts : List String} (sorted : texts.Pairwise (· ≤ ·)) :
    IsSetOf texts.eraseReps texts := by
  cases texts with
  | nil => exact ⟨.nil, fun text => Iff.rfl⟩
  | cons first rest =>
    induction rest generalizing first with
    | nil => exact ⟨List.pairwise_singleton .., fun text => Iff.rfl⟩
    | cons next rest ih =>
      rw [eraseReps_cons_cons]
      obtain ⟨least, sorted⟩ := List.pairwise_cons.mp sorted
      split_ifs with same
      · subst same
        obtain ⟨increasing, mem_iff⟩ := ih first sorted
        exact ⟨increasing, fun text => (mem_iff text).trans (by simp)⟩
      · obtain ⟨increasing, mem_iff⟩ := ih next sorted
        refine ⟨List.pairwise_cons.mpr ⟨fun text among => ?_, increasing⟩, fun text => ?_⟩
        · have below : first < next := (least next (by simp)).lt_of_ne same
          rcases List.mem_cons.mp ((mem_iff text).mp among) with rfl | later
          · exact below
          · exact below.trans_le ((List.pairwise_cons.mp sorted).1 text later)
        · rw [List.mem_cons, List.mem_cons, mem_iff]

theorem pairwise_mergeSort_by {α : Type} (key : α → String) (items : List α) :
    (items.mergeSort fun a b => key a ≤ key b).Pairwise fun a b => key a ≤ key b :=
  (stablySorted_mergeSort (fun _ _ => decide_eq_true_iff) items).ordered

theorem isSetOf_sortedSet (texts : List String) : IsSetOf (sortedSet texts) texts := by
  obtain ⟨increasing, mem_iff⟩ := isSetOf_eraseReps (pairwise_mergeSort_by id texts)
  exact ⟨increasing, fun text => (mem_iff text).trans List.mem_mergeSort⟩

/-! ## Arrays of texts -/

/-- The array of some texts. -/
def Json.ofTexts (texts : List String) : Json := .array (texts.map .string)

theorem Json.ofTexts_inj {texts others : List String} (same : ofTexts texts = ofTexts others) :
    texts = others :=
  (List.map_injective_iff.mpr fun _ _ => Json.string.inj) (Json.array.inj same)

theorem Json.proper_ofTexts (texts : List String) : (Json.ofTexts texts).Proper := by
  refine .array fun item among => ?_
  obtain ⟨text, -, rfl⟩ := List.mem_map.mp among
  exact .string text

/-- An array of texts has no members to put in another order. -/
theorem Json.Same.eq_ofTexts {texts : List String} {other : Json}
    (same : Same (.ofTexts texts) other) : other = .ofTexts texts := by
  generalize whole : Json.ofTexts texts = value at same
  cases same with
  | @array items others length each =>
    obtain rfl := Json.array.inj whole
    refine congrArg Json.array (List.ext_getElem length.symm fun i there here => ?_)
    have related := each i _ _ (List.getElem?_eq_getElem here) (List.getElem?_eq_getElem there)
    generalize others[i] = item at related ⊢
    rw [List.getElem_map] at related ⊢
    cases related with
    | string text => rfl
  | _ => cases whole

namespace Rule

theorem stringItems_eq_ok_iff {key : String} {items : List Json} {texts : List String} :
    stringItems key items = .ok texts ↔ items = texts.map .string := by
  rw [stringItems, mapM_eq_ok_iff]
  constructor
  · intro each
    induction each with
    | nil => rfl
    | @cons item text items texts here _ ih =>
      rw [ih, List.map_cons]
      cases item with
      | string value => rw [Except.ok.inj here]
      | _ => cases here
  · rintro rfl
    rw [List.forall₂_map_left_iff, List.forall₂_same]
    exact fun text _ => rfl

theorem stringList_eq_ok_iff {key : String} {value : Json} {texts : List String} :
    stringList key value = .ok texts ↔ value = .ofTexts texts := by
  cases value with
  | array items => simp [stringList, stringItems_eq_ok_iff, Json.ofTexts]
  | _ => simp [stringList, Json.ofTexts]

/-! ## Attributes by tag -/

/-- A table has the attributes of every tag of an object, in increasing order of the tags. -/
structure IsTableOf (table : List (String × List String)) (tags : Members) : Prop where
  increasing : table.Pairwise fun a b => a.1 < b.1
  mem_iff (tag : String) (set : List String) :
    (tag, set) ∈ table ↔ ∃ texts, tags.get? tag = some (.ofTexts texts) ∧ IsSetOf set texts

theorem IsTableOf.unique {table other : List (String × List String)} {tags : Members}
    (first : IsTableOf table tags) (second : IsTableOf other tags) : table = other := by
  have nodup : ∀ {table : List (String × List String)}, (table.Pairwise fun a b => a.1 < b.1) →
      table.Nodup := fun increasing => increasing.imp fun below same => below.ne (congrArg _ same)
  refine List.Perm.eq_of_pairwise (fun a b _ _ below above => absurd below above.asymm)
    first.increasing second.increasing ?_
  rw [List.perm_ext_iff_of_nodup (nodup first.increasing) (nodup second.increasing)]
  rintro ⟨tag, set⟩
  exact (first.mem_iff tag set).trans (second.mem_iff tag set).symm

/-- Whether a list has the attributes of a tag, which are given as an array. -/
def Lists (tag : String × Json) (list : String × List String) : Prop :=
  list.1 = tag.1 ∧ ∃ texts, tag.2 = .ofTexts texts ∧ list.2 = sortedSet texts

theorem tagLists_eq_ok_iff {key : String} {value : Json} {table : List (String × List String)} :
    tagLists key value = .ok table ↔ ∃ tags lists, value = .object tags ∧
      List.Forall₂ Lists tags lists ∧ table = sortedByKey lists := by
  cases value with
  | object tags =>
    have each : ∀ tag list, (do return (tag.1, sortedSet (← stringList key tag.2))) =
        (.ok list : Except RuleError.Reason (String × List String)) ↔ Lists tag list := by
      rintro ⟨tag, value⟩ ⟨name, set⟩
      rw [bind_eq_ok_iff]
      constructor
      · rintro ⟨texts, given, built⟩
        obtain ⟨rfl, rfl⟩ := Prod.mk.inj (Except.ok.inj built)
        exact ⟨rfl, texts, stringList_eq_ok_iff.mp given, rfl⟩
      · rintro ⟨rfl, texts, given, rfl⟩
        exact ⟨texts, stringList_eq_ok_iff.mpr given, rfl⟩
    rw [tagLists, bind_eq_ok_iff]
    constructor
    · rintro ⟨lists, read, built⟩
      refine ⟨tags, lists, rfl, ?_, (Except.ok.inj built).symm⟩
      exact (mapM_eq_ok_iff.mp read).imp fun tag list => (each tag list).mp
    · rintro ⟨_, lists, ⟨⟩, listed, rfl⟩
      refine ⟨lists, mapM_eq_ok_iff.mpr ?_, rfl⟩
      exact listed.imp fun tag list => (each tag list).mpr
  | _ => simp [tagLists]

theorem mem_lists {tags : Members} {lists : List (String × List String)}
    (listed : List.Forall₂ Lists tags lists) {tag : String} {set : List String} :
    (tag, set) ∈ lists ↔ ∃ texts, (tag, .ofTexts texts) ∈ tags ∧ IsSetOf set texts := by
  induction listed with
  | nil => simp
  | @cons member list tags lists here _ ih =>
    obtain ⟨same, given, value, built⟩ := here
    rcases member with ⟨name, _⟩
    rcases list with ⟨_, _⟩
    subst same value built
    rw [List.mem_cons, ih]
    simp only [List.mem_cons, or_and_right, exists_or]
    refine or_congr_left ?_
    constructor
    · intro first
      obtain ⟨rfl, rfl⟩ := Prod.mk.inj first
      exact ⟨given, rfl, isSetOf_sortedSet given⟩
    · rintro ⟨texts, first, isSet⟩
      obtain ⟨rfl, value⟩ := Prod.mk.inj first
      obtain rfl := Json.ofTexts_inj value
      rw [isSet.unique (isSetOf_sortedSet texts)]

theorem map_fst_lists {tags : Members} {lists : List (String × List String)}
    (listed : List.Forall₂ Lists tags lists) : lists.map Prod.fst = tags.map Prod.fst := by
  induction listed with
  | nil => rfl
  | cons here _ ih => rw [List.map_cons, List.map_cons, ih, here.1]

theorem isTableOf_sortedByKey {tags : Members} {lists : List (String × List String)}
    (distinct : (tags.map Prod.fst).Nodup) (listed : List.Forall₂ Lists tags lists) :
    IsTableOf (sortedByKey lists) tags := by
  refine ⟨?_, fun tag set => ?_⟩
  · have keys : ((sortedByKey lists).map Prod.fst).Nodup :=
      (((List.mergeSort_perm lists _).map Prod.fst).nodup_iff).mpr (map_fst_lists listed ▸ distinct)
    have differ := List.pairwise_map.mp keys
    exact ((pairwise_mergeSort_by Prod.fst lists).and differ).imp fun both => both.1.lt_of_ne both.2
  · rw [sortedByKey, List.mem_mergeSort, mem_lists listed]
    refine exists_congr fun texts => and_congr_left fun _ => ?_
    exact ⟨Members.get?_of_mem distinct, Members.mem_of_get?⟩

/-! ## Members of a configuration -/

/-- A member that may stand in a configuration. -/
inductive Setting : String → Json → Prop where
  | texts {key : String} (known : key ∈ ["allowlist", "whitelist", "globalAttributes"])
      (texts : List String) : Setting key (.ofTexts texts)
  | tags {tags : Members} (each : ∀ tag ∈ tags, ∃ texts, tag.2 = .ofTexts texts) :
      Setting "elementAttributes" (.object tags)

theorem Setting.exists_texts {key : String} {value : Json} (setting : Setting key value)
    (other : key ≠ "elementAttributes") : ∃ texts, value = .ofTexts texts := by
  cases setting with
  | texts _ texts => exact ⟨texts, rfl⟩
  | tags => exact absurd rfl other

theorem Setting.exists_tags {key : String} {value : Json} (setting : Setting key value)
    (same : key = "elementAttributes") : ∃ tags, value = .object tags := by
  cases setting with
  | texts known => exact absurd (same ▸ known) (by decide)
  | tags => exact ⟨_, rfl⟩

theorem exists_lists_iff {tags : Members} :
    (∃ lists, List.Forall₂ Lists tags lists) ↔ ∀ tag ∈ tags, ∃ texts, tag.2 = .ofTexts texts := by
  constructor
  · rintro ⟨lists, listed⟩ tag among
    induction listed with
    | nil => cases among
    | cons here _ ih =>
      rcases List.mem_cons.mp among with rfl | later
      · exact here.2.imp fun texts given => given.1
      · exact ih later
  · intro each
    induction tags with
    | nil => exact ⟨[], .nil⟩
    | cons tag tags ih =>
      obtain ⟨⟨texts, given⟩, rest⟩ := List.forall_mem_cons.mp each
      obtain ⟨lists, listed⟩ := ih rest
      exact ⟨(tag.1, sortedSet texts) :: lists, .cons ⟨rfl, texts, given, rfl⟩ listed⟩

/-- What taking a member does to a draft: it sets what the member is about. -/
inductive Draft.Adds (draft : Draft) : String → Json → Draft → Prop where
  | allowlist (texts : List String) :
      Adds draft "allowlist" (.ofTexts texts) { draft with allowlist := texts }
  | whitelist (texts : List String) :
      Adds draft "whitelist" (.ofTexts texts) { draft with whitelist := texts }
  | globalAttributes (texts : List String) :
      Adds draft "globalAttributes" (.ofTexts texts)
        { draft with globalAttributes := sortedSet texts }
  | elementAttributes {tags : Members} {lists : List (String × List String)}
      (listed : List.Forall₂ Lists tags lists) :
      Adds draft "elementAttributes" (.object tags)
        { draft with elementAttributes := sortedByKey lists }

theorem stringList_bind_eq_ok_iff {key : String} {value : Json} {build : List String → Draft}
    {next : Draft} :
    (stringList key value >>= fun texts => pure (build texts)) = .ok next ↔
      ∃ texts, value = .ofTexts texts ∧ build texts = next := by
  simp only [bind_eq_ok_iff, stringList_eq_ok_iff, pure, Except.pure, Except.ok.injEq]

theorem Draft.add_eq_ok_iff {draft next : Draft} {key : String} {value : Json} :
    draft.add key value = .ok next ↔ draft.Adds key value next := by
  constructor
  · intro added
    unfold Draft.add at added
    split at added
    · obtain ⟨texts, rfl, rfl⟩ := stringList_bind_eq_ok_iff.mp added
      exact .allowlist texts
    · obtain ⟨texts, rfl, rfl⟩ := stringList_bind_eq_ok_iff.mp added
      exact .whitelist texts
    · obtain ⟨texts, rfl, rfl⟩ := stringList_bind_eq_ok_iff.mp added
      exact .globalAttributes texts
    · obtain ⟨table, given, built⟩ := bind_eq_ok_iff.mp added
      obtain ⟨tags, lists, rfl, listed, rfl⟩ := tagLists_eq_ok_iff.mp given
      obtain rfl := Except.ok.inj built
      exact .elementAttributes listed
    · cases added
  · intro adds
    cases adds with
    | elementAttributes listed =>
      exact bind_eq_ok_iff.mpr ⟨_, tagLists_eq_ok_iff.mpr ⟨_, _, rfl, listed, rfl⟩, rfl⟩
    | _ texts => exact stringList_bind_eq_ok_iff.mpr ⟨texts, rfl, rfl⟩

/-- Whether a member fits does not depend on what was taken before it. -/
theorem Draft.exists_adds_iff {draft : Draft} {key : String} {value : Json} :
    (∃ next, draft.Adds key value next) ↔ Setting key value := by
  constructor
  · rintro ⟨next, adds⟩
    cases adds with
    | elementAttributes listed => exact .tags (exists_lists_iff.mp ⟨_, listed⟩)
    | _ texts => exact .texts (by simp) texts
  · intro setting
    cases setting with
    | texts known texts =>
      simp only [List.mem_cons, List.not_mem_nil, or_false] at known
      obtain rfl | rfl | rfl := known
      · exact ⟨_, .allowlist texts⟩
      · exact ⟨_, .whitelist texts⟩
      · exact ⟨_, .globalAttributes texts⟩
    | tags each =>
      obtain ⟨lists, listed⟩ := exists_lists_iff.mpr each
      exact ⟨_, .elementAttributes listed⟩

/-! ## One member after another -/

/-- The draft that the members of an object make. -/
def Draft.gather (draft : Draft) (members : Members) : Except RuleError.Reason Draft :=
  members.foldlM (fun draft member => draft.add member.1 member.2) draft

theorem Draft.gather_cons_eq_ok_iff {draft final : Draft} {key : String} {value : Json}
    {members : Members} :
    draft.gather ((key, value) :: members) = .ok final ↔
      ∃ next : Draft, draft.Adds key value next ∧ next.gather members = .ok final := by
  simp only [gather, List.foldlM_cons, bind_eq_ok_iff, add_eq_ok_iff]

theorem Draft.exists_gather_iff {draft : Draft} {members : Members} :
    (∃ final, draft.gather members = .ok final) ↔
      ∀ member ∈ members, Setting member.1 member.2 := by
  induction members generalizing draft with
  | nil => exact ⟨fun _ => List.forall_mem_nil _, fun _ => ⟨draft, rfl⟩⟩
  | cons member members ih =>
    rcases member with ⟨key, value⟩
    simp only [gather_cons_eq_ok_iff, List.forall_mem_cons]
    constructor
    · rintro ⟨final, next, adds, later⟩
      exact ⟨exists_adds_iff.mp ⟨next, adds⟩, ih.mp ⟨final, later⟩⟩
    · rintro ⟨fits, rest⟩
      obtain ⟨next, adds⟩ : ∃ next, draft.Adds key value next := exists_adds_iff.mpr fits
      obtain ⟨final, later⟩ : ∃ final, next.gather members = .ok final := ih.mpr rest
      exact ⟨final, next, adds, later⟩

/-- A part of a draft is set by the member of one key and by no other. -/
structure Draft.SetBy {α : Type} (key : String) (part : Draft → α) (reads : Json → α → Prop) :
    Prop where
  here {draft next : Draft} {other : String} {value : Json}
    (adds : draft.Adds other value next) (same : other = key) : reads value (part next)
  elsewhere {draft next : Draft} {other : String} {value : Json}
    (adds : draft.Adds other value next) (differs : other ≠ key) : part next = part draft

/-- When all members have been taken, each part is as the member of its key says, wherever it
stands, or as it was. -/
theorem Draft.SetBy.gather {α : Type} {key : String} {part : Draft → α} {reads : Json → α → Prop}
    (set : SetBy key part reads) {draft final : Draft} {members : Members}
    (distinct : (members.map Prod.fst).Nodup) (gathered : draft.gather members = .ok final) :
    (members.get? key = none → part final = part draft) ∧
      ∀ value, members.get? key = some value → reads value (part final) := by
  induction members generalizing draft with
  | nil =>
    obtain rfl := Except.ok.inj gathered
    exact ⟨fun _ => rfl, fun value present => absurd present (Option.some_ne_none value).symm⟩
  | cons member members ih =>
    rcases member with ⟨name, given⟩
    rw [List.map_cons, List.nodup_cons] at distinct
    obtain ⟨next, adds, later⟩ := gather_cons_eq_ok_iff.mp gathered
    obtain ⟨kept, found⟩ := ih distinct.2 later
    rw [Members.get?_cons]
    by_cases same : key = name
    · rw [if_pos same]
      have unchanged := kept (Members.get?_eq_none_iff.mpr (same ▸ distinct.1))
      refine ⟨fun absent => absurd absent (Option.some_ne_none given), fun value present => ?_⟩
      rw [← Option.some.inj present, unchanged]
      exact set.here adds same.symm
    · rw [if_neg same]
      exact ⟨fun absent => (kept absent).trans (set.elsewhere adds (Ne.symm same)), found⟩

theorem Draft.setBy_allowlist :
    SetBy "allowlist" Draft.allowlist fun value texts => value = .ofTexts texts where
  here adds same := by
    cases adds with
    | allowlist => rfl
    | _ => exact absurd same (by decide)
  elsewhere adds differs := by
    cases adds with
    | allowlist => exact absurd rfl differs
    | _ => rfl

theorem Draft.setBy_whitelist :
    SetBy "whitelist" Draft.whitelist fun value texts => value = .ofTexts texts where
  here adds same := by
    cases adds with
    | whitelist => rfl
    | _ => exact absurd same (by decide)
  elsewhere adds differs := by
    cases adds with
    | whitelist => exact absurd rfl differs
    | _ => rfl

theorem Draft.setBy_globalAttributes :
    SetBy "globalAttributes" Draft.globalAttributes fun value set =>
      ∃ texts, value = .ofTexts texts ∧ set = sortedSet texts where
  here adds same := by
    cases adds with
    | globalAttributes texts => exact ⟨texts, rfl, rfl⟩
    | _ => exact absurd same (by decide)
  elsewhere adds differs := by
    cases adds with
    | globalAttributes => exact absurd rfl differs
    | _ => rfl

theorem Draft.setBy_elementAttributes :
    SetBy "elementAttributes" Draft.elementAttributes fun value table =>
      ∃ tags lists, value = .object tags ∧ List.Forall₂ Lists tags lists ∧
        table = sortedByKey lists where
  here adds same := by
    cases adds with
    | elementAttributes listed => exact ⟨_, _, rfl, listed, rfl⟩
    | _ => exact absurd same (by decide)
  elsewhere adds differs := by
    cases adds with
    | elementAttributes => exact absurd rfl differs
    | _ => rfl

/-! ## Shapes -/

/-- A value that configures the rule. -/
inductive Shape : Json → Prop where
  | null : Shape .null
  | bool (value : Bool) : Shape (.bool value)
  | array (texts : List String) : Shape (.ofTexts texts)
  | object {members : Members} (each : ∀ member ∈ members, Setting member.1 member.2) :
      Shape (.object members)

theorem decode_object_eq_ok_iff {members : Members} {outcome : Option Rule} :
    decode (.object members) = .ok outcome ↔
      ∃ draft : Draft, ({} : Draft).gather members = .ok draft ∧ outcome = some draft.finish := by
  rw [decode, bind_eq_ok_iff]
  exact exists_congr fun draft => and_congr_right fun _ =>
    ⟨fun built => (Except.ok.inj built).symm, fun same => same ▸ rfl⟩

theorem decode_array_eq_ok_iff {items : List Json} {outcome : Option Rule} :
    decode (.array items) = .ok outcome ↔
      ∃ texts : List String, items = texts.map .string ∧
        outcome = some { Rule.default with allowlist := Allowlist.longestFirst texts } := by
  rw [decode, bind_eq_ok_iff]
  exact exists_congr fun texts => and_congr stringItems_eq_ok_iff
    ⟨fun built => (Except.ok.inj built).symm, fun same => same ▸ rfl⟩

theorem exists_decode_iff {value : Json} :
    (∃ outcome, decode value = .ok outcome) ↔ Shape value := by
  constructor
  · rintro ⟨outcome, decoded⟩
    cases value with
    | null => exact .null
    | bool value => exact .bool value
    | array items =>
      obtain ⟨texts, rfl, -⟩ := decode_array_eq_ok_iff.mp decoded
      exact .array texts
    | object members =>
      obtain ⟨draft, gathered, -⟩ := decode_object_eq_ok_iff.mp decoded
      exact .object (Draft.exists_gather_iff.mp ⟨draft, gathered⟩)
    | number value => cases decoded
    | string text => cases decoded
  · intro shape
    cases shape with
    | null => exact ⟨none, rfl⟩
    | bool value => cases value <;> exact ⟨_, rfl⟩
    | array texts => exact ⟨_, decode_array_eq_ok_iff.mpr ⟨texts, rfl, rfl⟩⟩
    | object each =>
      obtain ⟨draft, gathered⟩ := Draft.exists_gather_iff.mpr each
      exact ⟨_, decode_object_eq_ok_iff.mpr ⟨draft, gathered, rfl⟩⟩

/-! ## The rule of an object -/

/-- No text is given at a key. -/
def GivesNone (members : Members) (key : String) : Prop :=
  ∀ texts, members.get? key = some (.ofTexts texts) → texts = []

/-- The rule that the members of an object stand for, by their keys. -/
structure Configures (members : Members) (rule : Rule) : Prop where
  allowlist {texts : List String} (given : members.get? "allowlist" = some (.ofTexts texts))
    (nonempty : texts ≠ []) : rule.allowlist = Allowlist.longestFirst texts
  whitelist (unused : GivesNone members "allowlist") {texts : List String}
    (given : members.get? "whitelist" = some (.ofTexts texts)) (nonempty : texts ≠ []) :
    rule.allowlist = Allowlist.longestFirst texts
  defaultAllowlist (unused : GivesNone members "allowlist")
    (unusedToo : GivesNone members "whitelist") : rule.allowlist = Rule.default.allowlist
  globalAttributes {texts : List String}
    (given : members.get? "globalAttributes" = some (.ofTexts texts)) :
    IsSetOf rule.globalAttributes texts
  defaultGlobalAttributes (absent : members.get? "globalAttributes" = none) :
    rule.globalAttributes = Rule.default.globalAttributes
  elementAttributes {tags : Members}
    (given : members.get? "elementAttributes" = some (.object tags)) :
    IsTableOf rule.elementAttributes tags
  defaultElementAttributes (absent : members.get? "elementAttributes" = none) :
    rule.elementAttributes = Rule.default.elementAttributes

theorem gather_empty_iff {members : Members} {key : String} {part : Draft → List String}
    (set : Draft.SetBy key part fun value texts => value = .ofTexts texts)
    (start : part {} = []) {draft : Draft} (distinct : (members.map Prod.fst).Nodup)
    (gathered : ({} : Draft).gather members = .ok draft) :
    GivesNone members key ↔ part draft = [] := by
  obtain ⟨kept, found⟩ := set.gather distinct gathered
  constructor
  · intro unused
    cases given : members.get? key with
    | none => rw [kept given, start]
    | some value => exact unused _ (given.trans (congrArg some (found value given)))
  · intro empty texts given
    rw [← Json.ofTexts_inj (found _ given).symm, empty]

theorem configures_finish {members : Members} {draft : Draft}
    (distinct : (members.map Prod.fst).Nodup)
    (distinctTags : ∀ tags, members.get? "elementAttributes" = some (.object tags) →
      (tags.map Prod.fst).Nodup)
    (gathered : ({} : Draft).gather members = .ok draft) : Configures members draft.finish := by
  have own := Draft.setBy_allowlist.gather distinct gathered
  have former := Draft.setBy_whitelist.gather distinct gathered
  have ownEmpty := gather_empty_iff Draft.setBy_allowlist rfl distinct gathered
  have formerEmpty := gather_empty_iff Draft.setBy_whitelist rfl distinct gathered
  have globals := Draft.setBy_globalAttributes.gather distinct gathered
  have elements := Draft.setBy_elementAttributes.gather distinct gathered
  constructor
  · intro texts given nonempty
    have same := Json.ofTexts_inj (own.2 _ given)
    simp [Draft.finish, ← same, nonempty]
  · intro unused texts given nonempty
    have same := Json.ofTexts_inj (former.2 _ given)
    simp [Draft.finish, ownEmpty.mp unused, ← same, nonempty]
  · intro unused unusedToo
    simp [Draft.finish, ownEmpty.mp unused, formerEmpty.mp unusedToo]
  · intro texts given
    obtain ⟨others, same, built⟩ := globals.2 _ given
    have isSet := isSetOf_sortedSet others
    rw [← built, ← Json.ofTexts_inj same] at isSet
    exact isSet
  · exact globals.1
  · intro tags given
    obtain ⟨others, lists, same, listed, built⟩ := elements.2 _ given
    obtain rfl := Json.object.inj same
    have isTable := isTableOf_sortedByKey (distinctTags _ given) listed
    rw [← built] at isTable
    exact isTable
  · exact elements.1

/-- The members of an object stand for one rule. -/
theorem Configures.unique {members : Members} {rule other : Rule}
    (each : ∀ member ∈ members, Setting member.1 member.2) (first : Configures members rule)
    (second : Configures members other) : rule = other := by
  have setting : ∀ {key value}, members.get? key = some value → Setting key value :=
    fun given => each _ (Members.mem_of_get? given)
  have allowlist : rule.allowlist = other.allowlist := by
    by_cases unused : GivesNone members "allowlist"
    · by_cases unusedToo : GivesNone members "whitelist"
      · rw [first.defaultAllowlist unused unusedToo, second.defaultAllowlist unused unusedToo]
      · simp only [GivesNone, not_forall] at unusedToo
        obtain ⟨texts, given, nonempty⟩ := unusedToo
        rw [first.whitelist unused given nonempty, second.whitelist unused given nonempty]
    · simp only [GivesNone, not_forall] at unused
      obtain ⟨texts, given, nonempty⟩ := unused
      rw [first.allowlist given nonempty, second.allowlist given nonempty]
  have globals : rule.globalAttributes = other.globalAttributes := by
    cases given : members.get? "globalAttributes" with
    | none => rw [first.defaultGlobalAttributes given, second.defaultGlobalAttributes given]
    | some value =>
      obtain ⟨texts, rfl⟩ := (setting given).exists_texts (by decide)
      exact (first.globalAttributes given).unique (second.globalAttributes given)
  have elements : rule.elementAttributes = other.elementAttributes := by
    cases given : members.get? "elementAttributes" with
    | none => rw [first.defaultElementAttributes given, second.defaultElementAttributes given]
    | some value =>
      obtain ⟨tags, rfl⟩ := (setting given).exists_tags rfl
      exact (first.elementAttributes given).unique (second.elementAttributes given)
  cases rule
  cases other
  simp only at allowlist globals elements
  rw [allowlist, globals, elements]

/-! ## Members in another order -/

section Same

open Json (Same)

variable {members others : Members}

theorem nodup_of_same (same : Same (.object members) (.object others)) :
    (members.map Prod.fst).Nodup := by
  cases same with
  | object distinct _ _ _ => exact distinct

theorem get?_none_of_same (same : Same (.object members) (.object others)) {key : String}
    (absent : members.get? key = none) : others.get? key = none := by
  cases same with
  | object _ _ keys _ =>
    rw [Members.get?_eq_none_iff] at absent ⊢
    exact mt (keys key).mpr absent

theorem get?_some_of_same (same : Same (.object members) (.object others)) {key : String}
    {value : Json} (given : members.get? key = some value) :
    ∃ other, others.get? key = some other ∧ Same value other := by
  cases found : others.get? key with
  | none => exact absurd (get?_none_of_same same.symm found) (by simp [given])
  | some other =>
    cases same with
    | object _ _ _ each => exact ⟨other, rfl, each key value other given found⟩

theorem get?_texts_of_same (same : Same (.object members) (.object others)) {key : String}
    {texts : List String} (given : members.get? key = some (.ofTexts texts)) :
    others.get? key = some (.ofTexts texts) := by
  obtain ⟨other, found, alike⟩ := get?_some_of_same same given
  rw [found, alike.eq_ofTexts]

theorem GivesNone.of_same (same : Same (.object members) (.object others)) {key : String}
    (unused : GivesNone members key) : GivesNone others key :=
  fun texts given => unused texts (get?_texts_of_same same.symm given)

theorem IsTableOf.of_same {table : List (String × List String)}
    (same : Same (.object members) (.object others)) (isTable : IsTableOf table members) :
    IsTableOf table others := by
  refine ⟨isTable.increasing, fun tag set => (isTable.mem_iff tag set).trans ?_⟩
  exact exists_congr fun texts => and_congr_left fun _ =>
    ⟨get?_texts_of_same same, get?_texts_of_same same.symm⟩

theorem Configures.of_same {rule : Rule} (same : Same (.object members) (.object others))
    (configures : Configures members rule) : Configures others rule where
  allowlist given := configures.allowlist (get?_texts_of_same same.symm given)
  whitelist unused _ given :=
    configures.whitelist (unused.of_same same.symm) (get?_texts_of_same same.symm given)
  defaultAllowlist unused unusedToo :=
    configures.defaultAllowlist (unused.of_same same.symm) (unusedToo.of_same same.symm)
  globalAttributes given := configures.globalAttributes (get?_texts_of_same same.symm given)
  defaultGlobalAttributes absent :=
    configures.defaultGlobalAttributes (get?_none_of_same same.symm absent)
  elementAttributes given := by
    obtain ⟨other, found, alike⟩ := get?_some_of_same same.symm given
    cases alike with
    | object distinct otherDistinct keys each =>
      exact (configures.elementAttributes found).of_same
        (Same.symm (.object distinct otherDistinct keys each))
  defaultElementAttributes absent :=
    configures.defaultElementAttributes (get?_none_of_same same.symm absent)

/-- What holds of the members of an object holds of them in another order. -/
theorem forall_mem_of_same (holds : String → Json → Prop)
    (alike : ∀ key value other, Same value other → holds key value → holds key other)
    (same : Same (.object members) (.object others))
    (each : ∀ member ∈ members, holds member.1 member.2) :
    ∀ member ∈ others, holds member.1 member.2 := by
  rintro ⟨key, other⟩ among
  have found := Members.get?_of_mem (nodup_of_same same.symm) among
  obtain ⟨value, given, back⟩ := get?_some_of_same same.symm found
  exact alike key value other back.symm (each (key, value) (Members.mem_of_get? given))

theorem Setting.of_same {key : String} {value other : Json} (same : Same value other)
    (setting : Setting key value) : Setting key other := by
  cases setting with
  | texts known texts => exact same.eq_ofTexts ▸ .texts known texts
  | @tags tags each =>
    obtain ⟨others, rfl⟩ : ∃ others, other = .object others := by
      cases same
      exact ⟨_, rfl⟩
    refine .tags (forall_mem_of_same (fun _ value => ∃ texts, value = .ofTexts texts) ?_ same each)
    rintro _ _ other alike ⟨texts, rfl⟩
    exact ⟨texts, alike.eq_ofTexts⟩

theorem same_of_perm (proper : Json.Proper (.object members)) (alike : members.Perm others) :
    Same (.object members) (.object others) := by
  have keys := alike.map Prod.fst
  refine .object proper.distinct (keys.nodup_iff.mp proper.distinct) (fun key => keys.mem_iff) ?_
  intro key value other here there
  have among := alike.mem_iff.mpr (Members.mem_of_get? there)
  obtain rfl := Option.some.inj (here.symm.trans (Members.get?_of_mem proper.distinct among))
  exact .refl (proper.of_get? here)

theorem configures_of_decode {rule : Rule} (same : Same (.object members) (.object others))
    (decoded : decode (.object members) = .ok (some rule)) : Configures members rule := by
  obtain ⟨draft, gathered, built⟩ := decode_object_eq_ok_iff.mp decoded
  obtain rfl := Option.some.inj built
  refine configures_finish (nodup_of_same same) (fun tags given => ?_) gathered
  obtain ⟨other, -, alike⟩ := get?_some_of_same same given
  cases alike with
  | object distinct _ _ _ => exact distinct

/-- Values that are the same up to the order of members configure the same rule, or none does. -/
theorem decode_of_same {value other : Json} (same : Same value other) {outcome : Option Rule}
    (decoded : decode value = .ok outcome) : decode other = .ok outcome := by
  cases same with
  | @array items others length each =>
    obtain ⟨texts, rfl, -⟩ := decode_array_eq_ok_iff.mp decoded
    rwa [Json.Same.eq_ofTexts (.array length each)]
  | @object members others distinct otherDistinct keys each =>
    have same := Same.object distinct otherDistinct keys each
    obtain ⟨draft, gathered, rfl⟩ := decode_object_eq_ok_iff.mp decoded
    have settings := Draft.exists_gather_iff.mp ⟨draft, gathered⟩
    have settingsToo := forall_mem_of_same Setting (fun _ _ _ => Setting.of_same) same settings
    obtain ⟨draftToo, gatheredToo⟩ :
        ∃ draft, ({} : Draft).gather others = .ok draft := Draft.exists_gather_iff.mpr settingsToo
    have decodedToo := decode_object_eq_ok_iff.mpr ⟨draftToo, gatheredToo, rfl⟩
    have first := (configures_of_decode same decoded).of_same same
    have second := configures_of_decode same.symm decodedToo
    rw [decodedToo, second.unique settingsToo first]
  | _ => exact decoded

end Same

/-! ## Configurations -/

theorem ofJson_eq_ok_iff {value : Json} {outcome : Option Rule} :
    ofJson value = .ok outcome ↔ decode value = .ok outcome :=
  mapError_eq_ok_iff

theorem mapError_ofJson (value : Json) :
    (ofJson value).mapError RuleError.reason = decode value := by
  rw [ofJson]
  cases decode value <;> rfl

/-- An array of texts is short for an object with an allowlist. -/
theorem decode_array_eq {items : List Json} (nonempty : items ≠ []) :
    decode (.array items) = decode (.object [("allowlist", .array items)]) := by
  cases given : stringItems "allowlist" items with
  | error reason => simp [decode, Draft.add, stringList, given, bind, Except.bind]
  | ok texts =>
    obtain rfl := stringItems_eq_ok_iff.mp given
    have some : texts ≠ [] := mt (congrArg (List.map Json.string)) nonempty
    simp [decode, Draft.add, Draft.finish, stringList, given, some, bind, Except.bind, pure,
      Except.pure]

/-- A value is accepted if and only if it has one of the shapes of a configuration. An object then
gives the one rule that its members stand for by their keys. An array that is not empty gives what
an object with this array as its allowlist gives, or is refused for the same reason. Members may
stand in any order, at every depth: the outcome is the same, or there is none in either order. -/
theorem configurations_read_exactly :
    (∀ value, (∃ outcome, ofJson value = .ok outcome) ↔ Shape value) ∧
      (∀ (members : Members) (outcome : Option Rule), Json.Proper (.object members) →
        (ofJson (.object members) = .ok outcome ↔
          Shape (.object members) ∧ ∃ rule, outcome = some rule ∧ Configures members rule)) ∧
      (∀ items : List Json, items ≠ [] →
        (ofJson (.array items)).mapError RuleError.reason =
          (ofJson (.object [("allowlist", .array items)])).mapError RuleError.reason) ∧
      (∀ (members others : Members) (outcome : Option Rule), Json.Proper (.object members) →
        members.Perm others →
        (ofJson (.object members) = .ok outcome ↔ ofJson (.object others) = .ok outcome)) ∧
      ∀ (value other : Json) (outcome : Option Rule), Json.Same value other →
        (ofJson value = .ok outcome ↔ ofJson other = .ok outcome) := by
  simp only [ofJson_eq_ok_iff, mapError_ofJson]
  refine ⟨fun value => exists_decode_iff, fun members outcome proper => ?_,
    fun items => decode_array_eq,
    fun members others outcome proper alike => ?_,
    fun value other outcome same => ⟨decode_of_same same, decode_of_same same.symm⟩⟩
  · have same := Json.Same.refl proper
    constructor
    · intro decoded
      obtain ⟨draft, -, rfl⟩ := decode_object_eq_ok_iff.mp decoded
      exact ⟨exists_decode_iff.mp ⟨_, decoded⟩, _, rfl, configures_of_decode same decoded⟩
    · rintro ⟨shape, rule, rfl, configures⟩
      obtain ⟨outcome, decoded⟩ := exists_decode_iff.mpr shape
      obtain ⟨draft, gathered, rfl⟩ := decode_object_eq_ok_iff.mp decoded
      have settings := Draft.exists_gather_iff.mp ⟨draft, gathered⟩
      rw [decoded, (configures_of_decode same decoded).unique settings configures]
  · have same := same_of_perm proper alike
    exact ⟨decode_of_same same, decode_of_same same.symm⟩

/-- An allowlist under its former key, and attributes by tag. -/
def sampleMembers : Members :=
  [("whitelist", .ofTexts ["", "a"]),
    ("elementAttributes", .object [("img", .ofTexts ["alt"]), ("a", .ofTexts ["rel"])])]

/-- The sample with its members and those inside them in another order. -/
def sampleReordered : Members :=
  [("elementAttributes", .object [("a", .ofTexts ["rel"]), ("img", .ofTexts ["alt"])]),
    ("whitelist", .ofTexts ["", "a"])]

theorem proper_sampleMembers : Json.Proper (.object sampleMembers) := by
  refine .object (by decide) (List.forall_mem_cons.mpr ⟨Json.proper_ofTexts _, ?_⟩)
  rw [List.forall_mem_singleton]
  refine .object (by decide) (List.forall_mem_cons.mpr ⟨Json.proper_ofTexts _, ?_⟩)
  rw [List.forall_mem_singleton]
  exact Json.proper_ofTexts _

theorem same_sampleReordered : Json.Same (.object sampleMembers) (.object sampleReordered) := by
  refine .object (by decide) (by decide) (fun key => ?_) fun key value other here there => ?_
  · simp [sampleMembers, sampleReordered, or_comm]
  · have among := Members.mem_of_get? here
    simp only [sampleMembers, List.mem_cons, Prod.mk.injEq, List.not_mem_nil, or_false] at among
    obtain ⟨rfl, rfl⟩ | ⟨rfl, rfl⟩ := among
    · cases there
      exact .refl (Json.proper_ofTexts _)
    · cases there
      exact same_of_perm (proper_sampleMembers.of_get? here) (.swap ..)

theorem sample_read_in_any_order :
    Json.Proper (.object sampleMembers) ∧ sampleMembers.Perm sampleMembers.reverse ∧
      Json.Same (.object sampleMembers) (.object sampleReordered) ∧
      (∃ rule, Configures sampleMembers rule ∧
        rule.allowlist = Allowlist.longestFirst ["", "a"] ∧
        ofJson (.object sampleMembers) = .ok (some rule) ∧
        ofJson (.object sampleMembers.reverse) = .ok (some rule) ∧
        ofJson (.object sampleReordered) = .ok (some rule)) ∧
      (ofJson (.array [.string "a", .null])).mapError RuleError.reason =
        (ofJson (.object [("allowlist", .array [.string "a", .null])])).mapError
          RuleError.reason := by
  have proper := proper_sampleMembers
  have alike : sampleMembers.Perm sampleMembers.reverse := (List.reverse_perm _).symm
  have same := same_sampleReordered
  obtain ⟨accepted, object, array, permuted, reordered⟩ := configurations_read_exactly
  have shape : Shape (.object sampleMembers) := by
    refine .object (List.forall_mem_cons.mpr ⟨.texts (by decide) _, ?_⟩)
    rw [List.forall_mem_singleton]
    exact .tags (by simp)
  obtain ⟨outcome, read⟩ := (accepted _).mpr shape
  obtain ⟨-, rule, rfl, configures⟩ := (object _ _ proper).mp read
  refine ⟨proper, alike, same, ⟨rule, configures, ?_, read, (permuted _ _ _ proper alike).mp read,
    (reordered _ _ _ same).mp read⟩, array _ (List.cons_ne_nil _ _)⟩
  exact configures.whitelist (fun texts given => by cases given) rfl (List.cons_ne_nil _ _)

end Rule

end TemplateLint
