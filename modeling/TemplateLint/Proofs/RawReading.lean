import Mathlib
import TemplateLint.Proofs.NoDocument
import TemplateLint.Proofs.Positions
import TemplateLint.Proofs.Refinement

/-! # What is read from a text

Every value that is read is proper: its objects have distinct keys and its integers fit into 64
bits. A template that is read from a text is what decoding gives of the value that is read from it.
-/

namespace TemplateLint

namespace Members

variable {members : Members} {key : String} {value : Json}

theorem assign_of_fresh (fresh : key ∉ members.map Prod.fst) (value : Json) :
    assign key value members = members ++ [(key, value)] := by
  induction members with
  | nil => rfl
  | cons head rest ih =>
    rcases head with ⟨name, old⟩
    rw [List.map_cons, List.mem_cons, not_or] at fresh
    rw [assign, if_neg (Ne.symm fresh.1), ih fresh.2, List.cons_append]

theorem assign_of_present (distinct : (members.map Prod.fst).Nodup)
    (present : key ∈ members.map Prod.fst) (value : Json) : assign key value members =
      members.map fun member => if member.1 == key then (key, value) else member := by
  induction members with
  | nil => cases present
  | cons head rest ih =>
    rcases head with ⟨name, old⟩
    rw [List.map_cons, List.nodup_cons] at distinct
    rw [assign, List.map_cons]
    by_cases here : name = key
    · have others : (rest.map fun member => if member.1 == key then (key, value) else member) =
          rest := by
        refine (List.map_congr_left fun member among => ?_).trans (List.map_id _)
        have differs : member.1 ≠ key := fun same =>
          distinct.1 (List.mem_map.mpr ⟨member, among, same.trans here.symm⟩)
        simp [differs]
      rw [if_pos here, others]
      simp [here]
    · have later : key ∈ rest.map Prod.fst :=
        (List.mem_cons.mp present).resolve_left (Ne.symm here)
      rw [if_neg here, ih distinct.2 later]
      simp [here]

theorem reverse_assignReversed (distinct : (members.map Prod.fst).Nodup) (key : String)
    (value : Json) :
    (assignReversed key value members).reverse = assign key value members.reverse := by
  have keys : (members.reverse.map Prod.fst).Nodup := by
    rwa [List.map_reverse, List.nodup_reverse]
  by_cases present : key ∈ members.map Prod.fst
  · have found : members.any (fun member => member.1 == key) = true := by
      obtain ⟨member, among, same⟩ := List.mem_map.mp present
      exact List.any_eq_true.mpr ⟨member, among, beq_iff_eq.mpr same⟩
    have there : key ∈ members.reverse.map Prod.fst := by simpa using present
    rw [assignReversed, if_pos found, assign_of_present keys there, List.map_reverse]
  · have absent : key ∉ members.reverse.map Prod.fst := by simpa using present
    rw [Json.Reader.assignReversed_of_fresh present, assign_of_fresh absent, List.reverse_cons]

/-- Assignment and selection by keys commute, and an assignment to a key that is not selected does
not matter. -/
theorem filter_assign (keep : String → Bool) (members : Members) (key : String) (value : Json) :
    (assign key value members).filter (fun member => keep member.1) =
      if keep key then assign key value (members.filter fun member => keep member.1)
      else members.filter fun member => keep member.1 := by
  induction members with
  | nil => cases kept : keep key <;> simp [assign, kept]
  | cons head rest ih =>
    rcases head with ⟨name, old⟩
    by_cases here : name = key
    · subst here
      cases kept : keep name <;> simp [assign, kept]
    · cases kept : keep key <;> cases stays : keep name <;>
        simp [assign, here, kept, stays, ih]

theorem nodup_assign (distinct : (members.map Prod.fst).Nodup) (key : String) (value : Json) :
    ((assign key value members).map Prod.fst).Nodup := by
  by_cases present : key ∈ members.map Prod.fst
  · rwa [map_fst_assign present]
  · rw [assign_of_fresh present, List.map_append]
    exact List.nodup_append'.mpr ⟨distinct, List.nodup_singleton _, by simpa using present⟩

end Members

namespace Json

theorem Proper.assign {members : Members} {value : Json} (proper : Proper (.object members))
    (given : value.Proper) (key : String) : Proper (.object (Members.assign key value members)) := by
  refine .object (Members.nodup_assign proper.distinct key value) fun member among => ?_
  rcases Members.mem_assign among with rfl | old
  · exact given
  · exact proper.of_mem_children (List.mem_map_of_mem old)

theorem Proper.reverse_assignReversed {gathered : Members}
    (proper : Proper (.object gathered.reverse)) (key : String) (value : Json) :
    (Members.assignReversed key value gathered).reverse =
      Members.assign key value gathered.reverse := by
  have distinct : (gathered.map Prod.fst).Nodup := by
    simpa [List.map_reverse] using proper.distinct
  exact Members.reverse_assignReversed distinct key value

namespace Reader

/-! ## Values are proper -/

theorem appendDigits_le {bound value : Nat} (small : value ≤ bound) (digits : List Nat) :
    (appendDigits bound digits value).1 ≤ bound := by
  induction digits generalizing value with
  | nil => exact small
  | cons digit rest ih =>
    rw [appendDigits]
    split_ifs with fits
    · exact ih fits
    · exact small

/-- A reader answers nothing but what has a property. -/
def Yields {α : Type} (P : α → Prop) (read : Reader α) : Prop :=
  Refines (fun a b => a = b ∧ P a) read read

theorem realNumber_proper (negative : Bool) (significand : Nat) (exponent : Int) :
    Yields (fun n => Json.Proper (.number n)) (realNumber negative significand exponent) := by
  unfold realNumber
  split
  · exact .pure ⟨rfl, .real _⟩
  · exact .of_stops fun _ => ⟨_, rfl⟩

theorem wholeNumber_proper (negative : Bool) {significand : Nat}
    (bounded : significand ≤ greatestInteger) :
    Yields (fun n => Json.Proper (.number n)) (wholeNumber negative significand) := by
  unfold wholeNumber
  split_ifs with sign range
  · refine .pure ⟨rfl, .integer ?_ ?_⟩
    · have := range.2
      unfold greatestNegative at this
      omega
    · omega
  · exact realNumber_proper _ _ _
  · refine .pure ⟨rfl, .integer (by omega) ?_⟩
    unfold greatestInteger at bounded
    omega

theorem numberValue_proper (parts : NumberParts) :
    Yields (fun n => Json.Proper (.number n)) (numberValue parts) := by
  have bounded : (appendDigits greatestInteger parts.fraction
      (appendDigits greatestInteger parts.whole 0).1).1 ≤ greatestInteger :=
    appendDigits_le (appendDigits_le (Nat.zero_le _) _) _
  unfold numberValue
  dsimp only
  split
  · unfold scaledNumber
    dsimp only
    split_ifs
    · exact .pure ⟨rfl, .real _⟩
    · exact .of_stops fun _ => ⟨_, rfl⟩
    · exact realNumber_proper _ _ _
    · exact realNumber_proper _ _ _
  · split_ifs
    · exact realNumber_proper _ _ _
    · exact wholeNumber_proper _ bounded

theorem number_proper : Yields (fun n => Json.Proper (.number n)) number :=
  .bind_same _ numberValue_proper

theorem valueWith_proper {inner : Option (Reader Json)}
    (proper : ∀ read, inner = some read → Yields Json.Proper read) :
    Yields Json.Proper (valueWith inner) := by
  refine .bind_same _ fun _ => .bind_same _ fun seen => ?_
  split
  · exact .of_stops fun _ => ⟨_, rfl⟩
  · exact .bind_same _ fun _ => .bind_same _ fun _ => .pure ⟨rfl, .null⟩
  · exact .bind_same _ fun _ => .bind_same _ fun _ => .pure ⟨rfl, .bool true⟩
  · exact .bind_same _ fun _ => .bind_same _ fun _ => .pure ⟨rfl, .bool false⟩
  · exact .bind_same _ fun _ => .bind_same _ fun text => .pure ⟨rfl, .string text⟩
  · split
    · exact .of_stops fun _ => ⟨_, rfl⟩
    next read =>
      refine (proper read rfl).list.bind fun items others each => .pure ?_
      have same : items = others := by
        simpa using each.imp fun _ _ both => both.1
      refine ⟨by rw [same], .array fun item among => ?_⟩
      obtain ⟨i, bound, rfl⟩ := List.getElem_of_mem among
      exact (each.get bound (each.length_eq ▸ bound)).2
  · split
    · exact .of_stops fun _ => ⟨_, rfl⟩
    next read =>
      refine fields_refines (fun gathered others =>
        gathered = others ∧ Json.Proper (.object gathered.reverse)) ?_ ?_ ?_
      · rintro name gathered _ ⟨rfl, sofar⟩ _ ⟨⟩
        refine ⟨_, rfl, (proper read rfl).bind fun value _ same => .pure ⟨by rw [same.1], ?_⟩⟩
        rw [sofar.reverse_assignReversed]
        exact sofar.assign same.2 name
      · exact ⟨rfl, .object List.nodup_nil nofun⟩
      · rintro gathered _ ⟨rfl, sofar⟩ _ ⟨⟩
        exact ⟨_, rfl, rfl, sofar⟩
  · split_ifs
    · exact number_proper.bind fun n m same => .pure ⟨by rw [same.1], same.2⟩
    · exact .of_stops fun _ => ⟨_, rfl⟩

theorem value_proper (depth : Nat) : Yields Json.Proper (value depth) := by
  induction depth with
  | zero => exact valueWith_proper nofun
  | succ depth ih =>
    refine valueWith_proper fun read same => ?_
    obtain rfl := Option.some.inj same
    exact ih

/-! ## Templates are decoded values -/

theorem Yields.answers {α : Type} {P : α → Prop} {read : Reader α} (yields : Yields P read)
    (cursor : Cursor) (a : α) (after : Cursor) (taken : read cursor = .ok (a, after)) : P a := by
  obtain ⟨_, _, _, holds⟩ := yields cursor a after taken
  exact holds

theorem once_eq_ok {α σ : Type} {name : String} {before : Option α} {read given : Reader σ}
    (calls : once name before read = .ok given) : given = read := by
  cases before with
  | none => exact (Except.ok.inj calls).symm
  | some _ => cases calls

/-- A value that is read untyped and decoded then. -/
theorem decoded_refines {α : Type} (decode : Json → Except DecodeError α) (depth : Nat) :
    Refines (fun a raw => decode raw = .ok a) (decoded decode depth) (value depth) := by
  rw [← bind_pure (value depth)]
  refine .bind_same _ fun raw => ?_
  split
  next result same => exact .pure same
  next => exact .of_stops fun _ => ⟨_, rfl⟩

theorem text_refines (depth : Nat) :
    Refines (fun content raw => raw = .string content) text (value depth) := by
  have either (inner : Option (Reader Json)) :
      Refines (fun content raw => raw = .string content) text (valueWith inner) := by
    refine .bind_same _ fun _ => .bind_same _ fun seen => ?_
    split
    · refine .bind_same _ fun _ => ?_
      rw [← bind_pure stringBody]
      simp only [bind_assoc, pure_bind]
      exact .bind_same _ fun content => .pure rfl
    · exact .of_stops (wrongType_stops .text)
  cases depth with
  | zero => exact either none
  | succ depth => exact either _

/-- A list whose items are read like values. -/
theorem listOf_refines {α : Type} {item : Nat → Reader α} {related : α → Json → Prop}
    (items : ∀ depth, Refines related (item depth) (value depth)) (depth : Nat) :
    Refines (fun list raw => ∃ values, raw = .array values ∧ List.Forall₂ related list values)
      (listOf item depth) (value depth) := by
  cases depth with
  | zero =>
    refine .bind_same _ fun _ => .bind_same _ fun seen => ?_
    split
    · exact .of_stops fun _ => ⟨_, rfl⟩
    · exact .of_stops (wrongType_stops .sequence)
  | succ depth =>
    refine .bind_same _ fun _ => .bind_same _ fun seen => ?_
    split
    · dsimp only
      rw [← bind_pure (list (item depth))]
      exact (items depth).list.bind fun list values each => .pure ⟨values, rfl, each⟩
    · exact .of_stops (wrongType_stops .sequence)

end Reader

end Json

open Json Json.Reader Schema

/-- A draft of a template has what was gathered of its object. -/
structure BodyDraft.Follows (draft : BodyDraft) (members : Members) : Prop where
  proper : Json.Proper (.object members)
  extra : draft.extra = members.filter fun member => member.1 ≠ "body"
  missing : draft.body = none → members.get? "body" = none
  given : ∀ body, draft.body = some body → ∃ raw, members.get? "body" = some raw ∧
    Node.decodeNodes raw = .ok body

theorem BodyDraft.Follows.decode {draft : BodyDraft} {members : Members} {template : Template}
    (follows : draft.Follows members) (finished : draft.finishTemplate = .ok template) :
    Template.decode (.object members) = .ok template := by
  obtain ⟨body, found, built⟩ := bind_eq_ok_iff.mp finished
  obtain rfl := Except.ok.inj built
  obtain ⟨raw, present, decoded⟩ := follows.given body (required_eq_ok_iff.mp found)
  have piece : Shape.template.decode (.object members) = .ok (.ofTemplate ⟨body, draft.extra⟩) := by
    refine (decode_iff follows.proper).mpr (.entity rfl ?_ ?_)
    · refine List.forall_mem_singleton.mpr ?_
      rw [present]
      exact .value (by simp) (map_eq_ok_iff.mpr ⟨body, decoded, rfl⟩)
    · refine follows.extra.trans (List.filter_congr fun member _ => ?_)
      simp [Entity.kind, Kind.keys, Kind.tagMember, Kind.tag?, Kind.names, Kind.fields]
  obtain ⟨template, decoded, same⟩ := map_eq_ok_iff.mp piece
  rw [decoded, Piece.ofTemplate_injective same]

theorem BodyDraft.Follows.assign_body {draft : BodyDraft} {members : Members}
    (follows : draft.Follows members) (fresh : draft.body = none) {raw : Json} {body : List Node}
    (proper : raw.Proper) (decoded : Node.decodeNodes raw = .ok body) :
    BodyDraft.Follows { draft with body := some body } (Members.assign "body" raw members) where
  proper := follows.proper.assign proper "body"
  extra := by
    have absent := Members.get?_eq_none_iff.mp (follows.missing fresh)
    rw [Members.assign_of_fresh absent, List.filter_append, follows.extra]
    simp
  missing := nofun
  given := by
    rintro _ ⟨⟩
    exact ⟨raw, by rw [Members.get?_assign, if_pos rfl], decoded⟩

theorem BodyDraft.Follows.assign_extra {draft : BodyDraft} {members : Members}
    (follows : draft.Follows members) {key : String} (differs : key ≠ "body") {raw : Json}
    (proper : raw.Proper) :
    BodyDraft.Follows { draft with extra := Members.assign key raw draft.extra }
      (Members.assign key raw members) where
  proper := follows.proper.assign proper key
  extra := by
    rw [Members.filter_assign (fun key => key ≠ "body"), if_pos (by simpa using differs),
      ← follows.extra]
  missing fresh := by
    rw [Members.get?_assign, if_neg (Ne.symm differs)]
    exact follows.missing fresh
  given body there := by
    rw [Members.get?_assign, if_neg (Ne.symm differs)]
    exact follows.given body there

/-- A template that is read is decoded from the value that is read. -/
theorem Template.read_refines (depth : Nat) :
    Refines (fun template raw => Template.decode raw = .ok template)
      (Template.record.read depth) (value depth) := by
  cases depth with
  | zero =>
    refine .bind_same _ fun _ => .bind_same _ fun seen => ?_
    split
    · exact .of_stops fun _ => ⟨_, rfl⟩
    · exact .of_stops (wrongType_stops _)
    · exact .of_stops (wrongType_stops _)
  | succ depth =>
    refine .bind_same _ fun _ => .bind_same _ fun seen => ?_
    split
    · refine fields_refines (fun draft gathered => draft.Follows gathered.reverse) ?_ ?_ ?_
      · intro name draft gathered follows read calls
        refine ⟨_, rfl, ?_⟩
        have proper := (value_proper depth).answers
        have assigned := follows.proper.reverse_assignReversed
        simp only [Template.record] at calls
        split at calls
        · cases fresh : draft.body with
          | some body => simp [fresh, once] at calls
          | none =>
            obtain rfl := Except.ok.inj ((congrArg (once _ · _) fresh).symm.trans calls)
            refine ((listOf_refines (decoded_refines Node.decode) depth).and_right proper).bind ?_
            rintro body _ ⟨⟨values, rfl, each⟩, good⟩
            refine .pure ?_
            rw [assigned]
            refine follows.assign_body fresh good ?_
            rw [Node.decodeNodes, decodeItems_eq_mapM, mapM_eq_ok_iff]
            exact each.flip
        · next differs =>
          obtain rfl := Except.ok.inj calls
          refine ((Refines.refl (value depth)).and_right proper).bind ?_
          rintro raw _ ⟨rfl, good⟩
          refine .pure ?_
          rw [assigned]
          exact follows.assign_extra differs good
      · refine ⟨.object List.nodup_nil (List.forall_mem_nil _), rfl, fun _ => rfl, ?_⟩
        rintro _ ⟨⟩
      · intro draft gathered follows template finished
        exact ⟨_, rfl, follows.decode finished⟩
    · exact .of_stops (wrongType_stops _)
    · exact .of_stops (wrongType_stops _)

end TemplateLint
