import Mathlib
import TemplateLint.Catalog.Basic
import TemplateLint.Proofs.Values

/-! # Entries of a catalog

An entry of a catalog is found by following the segments of its key through nested objects.
`Members.Added` says what an insertion does to the members it adds to. From this follow that the new
text is found under its segments, and that what was found before is still found.
-/

namespace TemplateLint

/-- The value that keys lead to, from the outermost object inwards. -/
def Json.getAt? (value : Json) : List String → Option Json
  | [] => some value
  | key :: rest => (value.get? key).bind fun inner => inner.getAt? rest

/-- A value that is the same later, or an object that is still an object. -/
def Json.Kept (value later : Json) : Prop :=
  later = value ∨ ∃ members others, value = .object members ∧ later = .object others

theorem Json.getAt?_object_cons (members : Members) (key : String) (rest : List String) :
    (Json.object members).getAt? (key :: rest) =
      (members.get? key).bind fun inner => inner.getAt? rest := rfl

namespace Members

/-! ## Insertion -/

/-- What an insertion of a text under keys makes of members. -/
inductive Added (text : String) : List String → Members → Members → Prop where
  | last {key : String} {members : Members} (fresh : get? members key = none) :
      Added text [key] members (members ++ [(key, .string text)])
  | beside {key : String} {rest : List String} {members inner : Members}
      (fresh : get? members key = none) (added : Added text rest [] inner) :
      Added text (key :: rest) members (members ++ [(key, .object inner)])
  | inside {key : String} {rest : List String} {members inner updated : Members}
      (present : get? members key = some (.object inner)) (added : Added text rest inner updated) :
      Added text (key :: rest) members (assign key (.object updated) members)

theorem added_of_insertAt {text : String} {keys : List String} {members updated : Members}
    (inserted : insertAt text keys members = .ok (some updated)) :
    Added text keys members updated := by
  fun_induction insertAt text keys members generalizing updated with
  | case1 => cases inserted
  | case2 => cases inserted
  | case3 last members fresh =>
    cases inserted
    exact .last fresh
  | case4 key rest members _ fresh ih =>
    obtain ⟨result, inner, same⟩ := bind_eq_ok_iff.mp inserted
    cases result with
    | none => cases same
    | some inner' =>
      cases same
      exact .beside fresh (ih inner)
  | case5 key rest members _ old present ih =>
    obtain ⟨result, inner, same⟩ := bind_eq_ok_iff.mp inserted
    cases result with
    | none => cases same
    | some inner' =>
      cases same
      exact .inside present (ih inner)
  | case6 => cases inserted

/-- An insertion that adds nothing found an entry. -/
theorem getAt?_of_insertAt_none {text : String} {keys : List String} {members : Members}
    (inserted : insertAt text keys members = .ok none) (some : keys ≠ []) :
    ((Json.object members).getAt? keys).isSome = true := by
  fun_induction insertAt text keys members with
  | case1 => exact absurd rfl some
  | case2 last members value present => simp [Json.getAt?, Json.get?, present]
  | case3 => cases inserted
  | case4 key rest members more fresh ih =>
    obtain ⟨result, inner, same⟩ := bind_eq_ok_iff.mp inserted
    cases result with
    | some inner' => cases same
    | none =>
      -- Nothing is found in an object that was made for the insertion.
      cases rest with
      | nil => exact absurd rfl more
      | cons next rest =>
        have found := ih inner (List.cons_ne_nil next rest)
        simp [Json.getAt?, Json.get?, get?] at found
  | case5 key rest members more old present ih =>
    obtain ⟨result, inner, same⟩ := bind_eq_ok_iff.mp inserted
    cases result with
    | some inner' => cases same
    | none =>
      simpa [Json.getAt?, Json.get?, present] using ih inner more
  | case6 => cases inserted

namespace Added

variable {text : String} {keys : List String} {members updated : Members}

/-- The new text is found under its keys. -/
theorem getAt? (added : Added text keys members updated) :
    (Json.object updated).getAt? keys = some (.string text) := by
  induction added with
  | last fresh =>
    rw [Json.getAt?_object_cons, get?_append_member _ _ _ _ fresh, if_pos rfl]
    rfl
  | beside fresh _ ih =>
    rw [Json.getAt?_object_cons, get?_append_member _ _ _ _ fresh, if_pos rfl]
    exact ih
  | inside present _ ih =>
    rw [Json.getAt?_object_cons, get?_assign, if_pos rfl]
    exact ih

private theorem kept_beside {key : String} {value : Json} (fresh : get? members key = none)
    {path : List String} {found : Json} (present : (Json.object members).getAt? path = some found) :
    ∃ later, (Json.object (members ++ [(key, value)])).getAt? path = some later ∧
      found.Kept later := by
  cases path with
  | nil => exact ⟨_, rfl, .inr ⟨members, _, (Option.some.inj present).symm, rfl⟩⟩
  | cons first rest =>
    have other : first ≠ key := by
      rintro rfl
      simp [Json.getAt?_object_cons, fresh] at present
    refine ⟨found, ?_, .inl rfl⟩
    rwa [Json.getAt?_object_cons, get?_append_member _ _ _ _ fresh, if_neg other]

/-- What was found under keys is found there still, and only objects change. -/
theorem kept (added : Added text keys members updated) {path : List String} {found : Json}
    (present : (Json.object members).getAt? path = some found) :
    ∃ later, (Json.object updated).getAt? path = some later ∧ found.Kept later := by
  induction added generalizing path with
  | last fresh => exact kept_beside fresh present
  | beside fresh => exact kept_beside fresh present
  | @inside key rest members inner updated there _ ih =>
    cases path with
    | nil => exact ⟨_, rfl, .inr ⟨members, _, (Option.some.inj present).symm, rfl⟩⟩
    | cons first path =>
      rw [Json.getAt?_object_cons] at present
      by_cases same : first = key
      · rw [same, there] at present
        obtain ⟨later, found, kept⟩ := ih present
        exact ⟨later, by simpa [Json.getAt?_object_cons, get?_assign, same] using found, kept⟩
      · refine ⟨found, ?_, .inl rfl⟩
        rwa [Json.getAt?_object_cons, get?_assign, if_neg same]

end Added

end Members

end TemplateLint
