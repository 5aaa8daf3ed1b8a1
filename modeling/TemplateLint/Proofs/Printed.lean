import Mathlib
import TemplateLint.Proofs.ReadBack
import TemplateLint.Proofs.Values

/-! # Printed values are read back

A printed value without reals is read back as it was, if the reader may open enough containers. A
number is the one value whose end is not part of it, so what follows a value matters here: it must
not go on with a number. The members of an object are gathered by `Gathers` for any reader of
members, so that records are read back by the same lemma as untyped objects.
-/

namespace TemplateLint.Json

namespace Reader

variable {α β σ : Type}

/-- What follows does not go on with a number. -/
def Ends (rest : List Char) : Prop :=
  ∀ c, rest.head? = some c → isDigit c = false ∧ c ≠ '.' ∧ c ≠ 'e' ∧ c ≠ 'E'

theorem ends_cons {c : Char} (stop : isDigit c = false ∧ c ≠ '.' ∧ c ≠ 'e' ∧ c ≠ 'E')
    (rest : List Char) : Ends (c :: rest) := by
  intro other same
  obtain rfl := Option.some.inj same
  exact stop

/-- A reader recovers a result from a text with blanks before it, if what follows does not go on
with a number. -/
def Recovers (read : Reader α) (text : String) (result : α) : Prop :=
  ∀ blank, (∀ c ∈ blank, Cursor.isBlank c = true) → ∀ rest, Ends rest → ∀ position,
    ∃ after, read ⟨blank ++ (text.toList ++ rest), position⟩ = .ok (result, ⟨rest, after⟩)

theorem Takes.recovers {read : Reader α} {text : String} {result : α}
    (takes : read.Takes text result) : read.Recovers text result :=
  fun blank allBlank rest _ position => takes blank allBlank rest position

theorem Recovers.map {read : Reader α} {text : String} {a : α} (recovers : read.Recovers text a)
    (f : α → β) : Recovers (do return f (← read)) text (f a) := by
  intro blank allBlank rest ends position
  obtain ⟨after, taken⟩ := recovers blank allBlank rest ends position
  exact ⟨after, bind_ok taken⟩

/-- Readers that start with the next character behind blanks come to it. -/
theorem blanks_peek {blank : List Char} (allBlank : ∀ c ∈ blank, Cursor.isBlank c = true)
    {c : Char} (solid : Cursor.isBlank c = false) (rest : List Char) (position : Position) :
    ∃ after, ∀ next : Option Char → Reader α,
      (blanks >>= fun _ => peek >>= next) ⟨blank ++ c :: rest, position⟩ =
        next (some c) ⟨c :: rest, after⟩ := by
  obtain ⟨after, passed⟩ := blanks_append allBlank solid rest position
  exact ⟨after, fun next => bind_ok passed⟩

/-! ## Numbers -/

theorem takeWhile_of_ends {rest : List Char} (ends : Ends rest) :
    rest.takeWhile isDigit = [] := by
  cases rest with
  | nil => rfl
  | cons c tail => simp [(ends c rfl).1]

theorem skipChars_append {chars rest : List Char} (all : ∀ c ∈ chars, isDigit c = true)
    (ends : Ends rest) (position : Position) :
    ∃ after, Cursor.skipChars isDigit (chars ++ rest) position = ⟨rest, after⟩ := by
  induction chars generalizing position with
  | nil =>
    refine ⟨position, ?_⟩
    cases rest with
    | nil => rfl
    | cons c tail => simp [Cursor.skipChars, (ends c rfl).1]
  | cons c chars ih =>
    obtain ⟨after, skipped⟩ := ih (fun c among => all c (List.mem_cons_of_mem _ among))
      (position.past c)
    refine ⟨after, ?_⟩
    rw [List.cons_append, Cursor.skipChars, if_pos (all c (List.mem_cons_self ..)), skipped]

theorem digits_append {chars rest : List Char} (all : ∀ c ∈ chars, isDigit c = true)
    (ends : Ends rest) (position : Position) :
    ∃ after, digits ⟨chars ++ rest, position⟩ = .ok (chars.map digitValue, ⟨rest, after⟩) := by
  obtain ⟨after, skipped⟩ := skipChars_append all ends position
  refine ⟨after, ?_⟩
  rw [digits, skipped, List.takeWhile_append_of_pos all, takeWhile_of_ends ends, List.append_nil]

theorem isDigit_of_mem_toDigits {n : Nat} : ∀ c ∈ Nat.toDigits 10 n, isDigit c = true :=
  fun _ among => Nat.isDigit_of_mem_toDigits (by omega) (by omega) among

/-- Only zero is written with a zero in front. -/
theorem toDigits_cons {n : Nat} (pos : 0 < n) :
    ∃ c tail, Nat.toDigits 10 n = c :: tail ∧ c ≠ '0' := by
  induction n using Nat.strong_induction_on with
  | h n ih =>
    rw [Nat.toDigits_eq_if (by omega)]
    split_ifs with small
    · refine ⟨_, [], rfl, ?_⟩
      intro zero
      rw [Nat.digitChar_eq_zero] at zero
      omega
    · obtain ⟨c, tail, written, nonzero⟩ := ih (n / 10) (by omega) (by omega)
      exact ⟨c, tail ++ [(n % 10).digitChar], by rw [written, List.cons_append], nonzero⟩

theorem wholeDigits_toDigits (atEnd : Problem) (n : Nat) {rest : List Char} (ends : Ends rest)
    (position : Position) :
    ∃ after, wholeDigits atEnd ⟨Nat.toDigits 10 n ++ rest, position⟩ =
      .ok ((Nat.toDigits 10 n).map digitValue, ⟨rest, after⟩) := by
  rcases Nat.eq_zero_or_pos n with rfl | pos
  · refine ⟨position.past '0', ?_⟩
    change wholeDigits atEnd ⟨'0' :: rest, position⟩ = .ok ([0], ⟨rest, position.past '0'⟩)
    rw [wholeDigits, peek_bind]
    change (advance >>= fun _ => peek >>= _) _ = _
    rw [advance_bind]
    cases rest with
    | nil => rfl
    | cons c tail =>
      rw [peek_bind]
      simp only [(ends c rfl).1]
      rfl
  · obtain ⟨c, tail, written, nonzero⟩ := toDigits_cons pos
    have all := isDigit_of_mem_toDigits (n := n)
    obtain ⟨after, taken⟩ := digits_append all ends position
    refine ⟨after, ?_⟩
    rw [← taken, written, List.cons_append, wholeDigits, peek_bind]
    have digit : isDigit c = true := all c (by rw [written]; exact List.mem_cons_self ..)
    simp only [digit, if_true]

/-- The sign of a number. -/
def sign (negative : Bool) : List Char := if negative then ['-'] else []

/-- What follows has neither a fraction nor an exponent in front. -/
theorem Ends.plain {rest : List Char} (ends : Ends rest) {atEnd : Problem} (position : Position) :
    (do
      match ← peek with
      | some '.' =>
        advance
        return some (← fractionDigits atEnd)
      | _ => return none : Reader (Option (List Nat))) ⟨rest, position⟩ =
        .ok (none, ⟨rest, position⟩) ∧
      (do
        match ← peek with
        | some 'e' | some 'E' =>
          advance
          return some (← exponentPart atEnd)
        | _ => return none : Reader (Option Exponent)) ⟨rest, position⟩ =
          .ok (none, ⟨rest, position⟩) := by
  constructor
  · change (match rest.head? with | some '.' => _ | _ => _ : Reader (Option (List Nat))) _ = _
    generalize ahead : rest.head? = next
    split
    · exact absurd rfl (ends _ ahead).2.1
    · rfl
  · change (match rest.head? with | some 'e' => _ | some 'E' => _ | _ => _ :
      Reader (Option Exponent)) _ = _
    generalize ahead : rest.head? = next
    split
    · exact absurd rfl (ends _ ahead).2.2.1
    · exact absurd rfl (ends _ ahead).2.2.2
    · rfl

theorem numberParts_toDigits (atEnd : Problem) (negative : Bool) (n : Nat) {rest : List Char}
    (ends : Ends rest) (position : Position) :
    ∃ after, numberParts atEnd ⟨sign negative ++ (Nat.toDigits 10 n ++ rest), position⟩ =
      .ok (⟨negative, (Nat.toDigits 10 n).map digitValue, [], none, false⟩, ⟨rest, after⟩) := by
  obtain ⟨after, whole⟩ := wholeDigits_toDigits atEnd n ends
    (if negative then position.past '-' else position)
  refine ⟨after, (bind_ok (a := negative) ?_).trans ((bind_ok whole).trans ?_)⟩
  · cases negative with
    | true => rfl
    | false =>
      obtain ⟨c, tail, written⟩ := List.exists_cons_of_length_pos (Nat.length_toDigits_pos (b := 10) (n := n))
      have digit : isDigit c = true :=
        isDigit_of_mem_toDigits c (by rw [written]; exact List.mem_cons_self ..)
      have unsigned : c ≠ '-' := by
        rintro rfl
        exact absurd digit (by decide)
      rw [written, sign, if_neg (by decide), List.nil_append, List.cons_append, peek_bind]
      generalize ahead : some c = next
      split
      · exact absurd (Option.some.inj ahead) unsigned
      · rfl
  · exact (bind_ok (ends.plain after).1).trans (bind_ok (ends.plain after).2)

theorem le_ofDigitChars (chars : List Char) (start : Nat) :
    start ≤ Nat.ofDigitChars 10 chars start := by
  induction chars generalizing start with
  | nil => exact Nat.le_refl start
  | cons c chars ih =>
    have := ih (10 * start + (c.toNat - '0'.toNat))
    rw [Nat.ofDigitChars_cons]
    omega

theorem appendDigits_eq {bound start : Nat} {chars : List Char}
    (fits : Nat.ofDigitChars 10 chars start ≤ bound) :
    appendDigits bound (chars.map digitValue) start =
      (Nat.ofDigitChars 10 chars start, chars.length) := by
  induction chars generalizing start with
  | nil => rfl
  | cons c chars ih =>
    rw [Nat.ofDigitChars_cons] at fits ⊢
    have here := (le_ofDigitChars chars _).trans fits
    rw [List.map_cons, appendDigits, digitValue, if_pos here, ih fits]
    rfl

/-- A natural number with a sign is read back, if it is in range. -/
theorem number_toDigits (negative : Bool) {n : Nat} (fits : n ≤ greatestInteger)
    {rest : List Char} (ends : Ends rest) (position : Position) :
    ∃ after, number ⟨sign negative ++ (Nat.toDigits 10 n ++ rest), position⟩ =
      wholeNumber negative n ⟨rest, after⟩ := by
  obtain ⟨after, parts⟩ := numberParts_toDigits .endInValue negative n ends position
  have value : Nat.ofDigitChars 10 (Nat.toDigits 10 n) 0 = n :=
    Nat.ofDigitChars_toDigits (by omega) (by omega)
  have taken : appendDigits greatestInteger ((Nat.toDigits 10 n).map digitValue) 0 =
      (n, (Nat.toDigits 10 n).length) := by
    rw [appendDigits_eq (value.symm ▸ fits), value]
  refine ⟨after, ?_⟩
  rw [number, bind_ok parts, numberValue]
  simp [taken, appendDigits]

theorem number_toString {n : Int} (low : -2 ^ 63 ≤ n) (high : n < 2 ^ 64) {rest : List Char}
    (ends : Ends rest) (position : Position) :
    ∃ after, number ⟨(toString n).toList ++ rest, position⟩ = .ok (.integer n, ⟨rest, after⟩) := by
  rw [Int.toString_eq_repr, Int.repr_eq_if, Nat.repr_eq_ofList_toDigits,
    Nat.repr_eq_ofList_toDigits]
  split_ifs with nonneg
  · have fits : n.toNat ≤ greatestInteger := by
      unfold greatestInteger
      omega
    obtain ⟨after, read⟩ := number_toDigits false fits ends position
    refine ⟨after, ?_⟩
    rw [String.toList_ofList]
    refine read.trans ?_
    rw [wholeNumber, if_neg (by decide), Int.toNat_of_nonneg nonneg]
    rfl
  · have fits : (-n).toNat ≤ greatestInteger := by
      unfold greatestInteger
      omega
    obtain ⟨after, read⟩ := number_toDigits true fits ends position
    refine ⟨after, ?_⟩
    rw [String.toList_append, List.append_assoc, String.toList_ofList, String.toList_ofList]
    refine read.trans ?_
    have range : 0 < (-n).toNat ∧ (-n).toNat ≤ greatestNegative := by
      unfold greatestNegative
      omega
    rw [wholeNumber, if_pos rfl, if_pos range, Int.toNat_of_nonneg (by omega), neg_neg]
    rfl

/-- A character that a number starts with. -/
def IsNumeric (c : Char) : Prop := c = '-' ∨ isDigit c = true

theorem IsNumeric.solid {c : Char} (numeric : IsNumeric c) : Cursor.isBlank c = false := by
  rcases numeric with rfl | digit
  · rfl
  · by_contra blank
    simp only [Cursor.isBlank, Bool.or_eq_false_iff, beq_eq_false_iff_ne, not_and_or, not_not,
      or_assoc] at blank
    rcases blank with rfl | rfl | rfl | rfl <;> cases digit

theorem toString_cons (n : Int) :
    ∃ c tail, (toString n).toList = c :: tail ∧ IsNumeric c := by
  rw [Int.toString_eq_repr, Int.repr_eq_if, Nat.repr_eq_ofList_toDigits,
    Nat.repr_eq_ofList_toDigits]
  split_ifs with nonneg
  · obtain ⟨c, tail, written⟩ :=
      List.exists_cons_of_length_pos (Nat.length_toDigits_pos (b := 10) (n := n.toNat))
    refine ⟨c, tail, by rw [String.toList_ofList, written], .inr ?_⟩
    exact isDigit_of_mem_toDigits c (by rw [written]; exact List.mem_cons_self ..)
  · exact ⟨'-', _, by rw [String.toList_append]; rfl, .inl rfl⟩

/-- The reader of values comes to a number. -/
theorem valueWith_numeric (inner : Option (Reader Json)) {c : Char} (numeric : IsNumeric c)
    {blank : List Char} (allBlank : ∀ c ∈ blank, Cursor.isBlank c = true) (rest : List Char)
    (position : Position) :
    ∃ after, valueWith inner ⟨blank ++ c :: rest, position⟩ =
      (do return Json.number (← number) : Reader Json) ⟨c :: rest, after⟩ := by
  obtain ⟨middle, begun⟩ := blanks_peek allBlank numeric.solid rest position
  refine ⟨middle, (begun _).trans ?_⟩
  generalize ahead : some c = next
  have starts : ∀ other, some c = some other → other = '-' ∨ isDigit other = true := by
    rintro other ⟨⟩
    exact numeric
  split
  · cases ahead
  · exact absurd (starts _ ahead) (by decide)
  · exact absurd (starts _ ahead) (by decide)
  · exact absurd (starts _ ahead) (by decide)
  · exact absurd (starts _ ahead) (by decide)
  · exact absurd (starts _ ahead) (by decide)
  · exact absurd (starts _ ahead) (by decide)
  · rw [if_pos (starts _ ahead)]

theorem valueWith_integer (inner : Option (Reader Json)) (level : Nat) {n : Int}
    (low : -2 ^ 63 ≤ n) (high : n < 2 ^ 64) :
    (valueWith inner).Recovers (render .pretty level (.number (.integer n)))
      (.number (.integer n)) := by
  intro blank allBlank rest ends position
  obtain ⟨c, tail, written, numeric⟩ := toString_cons n
  have front : (render .pretty level (.number (.integer n))).toList = c :: tail := by
    rw [render, Number.render, written]
  obtain ⟨middle, begun⟩ := valueWith_numeric inner numeric allBlank (tail ++ rest) position
  obtain ⟨after, taken⟩ := number_toString low high ends middle
  rw [written] at taken
  refine ⟨after, ?_⟩
  rw [front, List.cons_append, begun]
  exact bind_ok taken

/-! ## Words -/

/-- A word is read back, whatever follows. -/
theorem valueWith_null (inner : Option (Reader Json)) (level : Nat) :
    (valueWith inner).Takes (render .pretty level .null) .null := by
  intro blank allBlank rest position
  obtain ⟨middle, begun⟩ := blanks_peek allBlank (c := 'n') rfl ('u' :: 'l' :: 'l' :: rest) position
  rw [render]
  exact ⟨_, (begun _).trans rfl⟩

theorem valueWith_bool (inner : Option (Reader Json)) (level : Nat) (value : Bool) :
    (valueWith inner).Takes (render .pretty level (.bool value)) (.bool value) := by
  intro blank allBlank rest position
  cases value with
  | true =>
    obtain ⟨middle, begun⟩ := blanks_peek allBlank (c := 't') rfl ('r' :: 'u' :: 'e' :: rest)
      position
    rw [render]
    exact ⟨_, (begun _).trans rfl⟩
  | false =>
    obtain ⟨middle, begun⟩ := blanks_peek allBlank (c := 'f') rfl
      ('a' :: 'l' :: 's' :: 'e' :: rest) position
    rw [render]
    exact ⟨_, (begun _).trans rfl⟩

/-! ## Arrays -/

/-- What stands between the brackets of an array, or behind its first items. -/
def between (level : Nat) : Bool → List Json → List Char
  | true, [] => []
  | false, [] => (Form.pretty.newline level).toList
  | first, value :: values =>
    separator first ++ ((Form.pretty.newline (level + 1)).toList ++
      ((render .pretty (level + 1) value).toList ++ between level false values))

theorem between_cons (level : Nat) (first : Bool) (value : Json) (values : List Json)
    (rest : List Char) :
    between level first (value :: values) ++ rest =
      separator first ++ ((Form.pretty.newline (level + 1)).toList ++
        ((render .pretty (level + 1) value).toList ++ (between level false values ++ rest))) := by
  simp [between]

theorem toList_render_array (level : Nat) (values : List Json) (rest : List Char) :
    (render .pretty level (.array values)).toList ++ rest =
      '[' :: (between level true values ++ ']' :: rest) := by
  have behind (values : List Json) :
      (renderItems .pretty (level + 1) values).flatMap String.toList ++
        (Form.pretty.newline level).toList = between level false values := by
    induction values with
    | nil => rfl
    | cons value values ih => simp [between, ← ih, renderItems, separator]
  cases values with
  | nil => simp [render, between]
  | cons value values => simp [render, between, ← behind, separator]

theorem ends_newline (level : Nat) (rest : List Char) :
    Ends ((Form.pretty.newline level).toList ++ rest) := by
  simp only [Form.pretty, String.toList_append, List.append_assoc]
  exact ends_cons (c := '\n') (by decide) _

theorem ends_between (level : Nat) (values : List Json) (rest : List Char) :
    Ends (between level false values ++ rest) := by
  cases values with
  | nil => exact ends_newline level rest
  | cons value values =>
    rw [between_cons]
    exact ends_cons (c := ',') (by decide) _

theorem ends_inside (level : Nat) (members : Members) (rest : List Char) :
    Ends (inside level false members ++ rest) := by
  cases members with
  | nil => exact ends_newline level rest
  | cons member members =>
    rcases member with ⟨name, value⟩
    rw [inside_cons]
    exact ends_cons (c := ',') (by decide) _

/-- A text that starts neither with a blank nor with the end of an array. -/
def Starts (text : String) : Prop :=
  ∃ c tail, text.toList = c :: tail ∧ Cursor.isBlank c = false ∧ c ≠ ']'

section

variable {item : Reader α} {level : Nat} {steps : Steps} {first : Bool} {rest : List Char}

/-- The loop comes to the closing bracket. -/
theorem itemLoop_close (item : Reader α) (level : Nat) (step : Char) (steps : Steps) (first : Bool)
    (rest : List Char) (position : Position) :
    ∃ after, itemLoop item (step :: steps) first
      ⟨between level first [] ++ ']' :: rest, position⟩ = .ok ([], ⟨rest, after⟩) := by
  have allBlank : ∀ c ∈ between level first [], Cursor.isBlank c = true := by
    cases first with
    | true => simp [between]
    | false => exact isBlank_newline level
  obtain ⟨middle, begun⟩ := blanks_peek allBlank (c := ']') rfl rest position
  exact ⟨middle.past ']', begun _⟩

/-- The loop comes to an item. -/
theorem itemLoop_line (item : Reader α) (step : Char) (steps : Steps) (first : Bool) {text : String}
    (starts : Starts text) (rest : List Char) (position : Position) :
    ∃ after, itemLoop item (step :: steps) first
      ⟨separator first ++ ((Form.pretty.newline level).toList ++ (text.toList ++ rest)), position⟩ =
        (do
          let head ← item
          return head :: (← itemLoop item steps false)) ⟨text.toList ++ rest, after⟩ := by
  obtain ⟨c, tail, written, solid, opens⟩ := starts
  rw [written, List.cons_append]
  cases first with
  | true =>
    obtain ⟨after, begun⟩ := blanks_peek (isBlank_newline level) solid (tail ++ rest) position
    refine ⟨after, (begun _).trans ?_⟩
    generalize ahead : some c = next
    split
    · cases ahead
    · exact absurd (Option.some.inj ahead) opens
    · rfl
  | false =>
    obtain ⟨after, begun⟩ := blanks_peek (isBlank_newline level) solid (tail ++ rest)
      (position.past ',')
    have here (tail : List Char) : blanks ⟨',' :: tail, position⟩ =
        .ok ((), ⟨',' :: tail, position⟩) := rfl
    refine ⟨after, ?_⟩
    rw [separator, if_neg (by decide), List.singleton_append, itemLoop, bind_ok (here _),
      peek_bind]
    change (advance >>= fun _ => blanks >>= fun _ => peek >>= _) _ = _
    rw [advance_bind, begun]
    generalize ahead : some c = next
    split
    · cases ahead
    · exact absurd (Option.some.inj ahead) opens
    · rfl

/-- Items are read back from their written form if each of them is, by induction on them. -/
theorem itemLoop_recovers (write : α → Json) {items : List α}
    (starts : ∀ a ∈ items, Starts (render .pretty (level + 1) (write a)))
    (recovers : ∀ a ∈ items, item.Recovers (render .pretty (level + 1) (write a)) a)
    (enough : items.length < steps.length) (first : Bool) (rest : List Char)
    (position : Position) :
    ∃ after, itemLoop item steps first
      ⟨between level first (items.map write) ++ ']' :: rest, position⟩ =
        .ok (items, ⟨rest, after⟩) := by
  induction items generalizing steps first position with
  | nil =>
    obtain ⟨step, steps, rfl⟩ := List.exists_cons_of_length_pos enough
    exact itemLoop_close item level step steps first rest position
  | cons a items ih =>
    obtain ⟨step, steps, rfl⟩ := List.exists_cons_of_length_pos (Nat.zero_lt_of_lt enough)
    rw [List.map_cons, between_cons]
    obtain ⟨start, begun⟩ := itemLoop_line item step steps first (starts a (List.mem_cons_self ..))
      (between level false (items.map write) ++ ']' :: rest) position
    obtain ⟨middle, taken⟩ := recovers a (List.mem_cons_self ..) [] nofun
      (between level false (items.map write) ++ ']' :: rest) (ends_between level _ _) start
    obtain ⟨after, finished⟩ := ih (fun a among => starts a (List.mem_cons_of_mem _ among))
      (fun a among => recovers a (List.mem_cons_of_mem _ among)) (Nat.lt_of_succ_lt_succ enough)
      false middle
    exact ⟨after, begun.trans ((bind_ok taken).trans (bind_ok finished))⟩

theorem length_le_length_between (level : Nat) (first : Bool) (values : List Json) :
    values.length ≤ (between level first values).length := by
  induction values generalizing first with
  | nil => exact Nat.zero_le _
  | cons value values ih =>
    have others := ih false
    have line : 1 ≤ (Form.pretty.newline (level + 1)).toList.length := by
      simp [Form.pretty]
    simp only [between, List.length_append, List.length_cons]
    omega

/-- An array is read back if each of its items is. -/
theorem list_recovers (write : α → Json) {items : List α}
    (starts : ∀ a ∈ items, Starts (render .pretty (level + 1) (write a)))
    (recovers : ∀ a ∈ items, item.Recovers (render .pretty (level + 1) (write a)) a)
    (rest : List Char) (position : Position) :
    ∃ after, list item ⟨'[' :: (between level true (items.map write) ++ ']' :: rest), position⟩ =
      .ok (items, ⟨rest, after⟩) := by
  have enough : items.length <
      (' ' :: (between level true (items.map write) ++ ']' :: rest)).length := by
    have := length_le_length_between level true (items.map write)
    rw [List.length_map] at this
    simp only [List.length_cons, List.length_append]
    omega
  obtain ⟨after, taken⟩ := itemLoop_recovers write starts recovers enough true rest (position.past '[')
  exact ⟨after, placing_ok ((advance_bind ..).trans taken)⟩

end

/-! ## Objects -/

/-- The members of an object are gathered one after another, each by the reader that its key
calls for. -/
inductive Gathers (member : String → σ → Except DecodeError (Reader σ)) (level : Nat) :
    Members → σ → σ → Prop where
  | nil (gathered : σ) : Gathers member level [] gathered gathered
  | cons {name : String} {value : Json} {rest : Members} {gathered next final : σ} {read : Reader σ}
      (calls : member name gathered = .ok read)
      (recovers : read.Recovers (render .pretty level value) next)
      (later : Gathers member level rest next final) :
      Gathers member level ((name, value) :: rest) gathered final

section

variable {member : String → σ → Except DecodeError (Reader σ)} {level : Nat} {members : Members}
  {gathered final : σ}

theorem memberLoop_gathers {steps : Steps} (gathers : Gathers member (level + 1) members gathered final)
    (enough : members.length < steps.length) (first : Bool) (rest : List Char)
    (position : Position) :
    ∃ after, memberLoop member steps first gathered
      ⟨inside level first members ++ '\x7d' :: rest, position⟩ =
        .ok (final, ⟨'\x7d' :: rest, after⟩) := by
  induction gathers generalizing steps first position with
  | nil gathered =>
    obtain ⟨step, steps, rfl⟩ := List.exists_cons_of_length_pos enough
    exact memberLoop_close member gathered level step steps first rest position
  | @cons name value members gathered next final read calls recovers _ ih =>
    obtain ⟨step, steps, rfl⟩ := List.exists_cons_of_length_pos (Nat.zero_lt_of_lt enough)
    rw [inside_cons]
    obtain ⟨start, begun⟩ := memberLoop_entry calls (level + 1) step steps first
      ([' '] ++ ((render .pretty (level + 1) value).toList ++
        (inside level false members ++ '\x7d' :: rest))) position
    obtain ⟨middle, taken⟩ := recovers [' '] (by simp [Cursor.isBlank])
      (inside level false members ++ '\x7d' :: rest) (ends_inside level members _) start
    obtain ⟨after, finished⟩ := ih (Nat.lt_of_succ_lt_succ enough) false middle
    exact ⟨after, begun.trans ((bind_ok taken).trans finished)⟩

/-- An object is read back if its members are gathered and make a result. -/
theorem fields_gathers {start : σ} (finish : σ → Except DecodeError α) {result : α}
    (gathers : Gathers member (level + 1) members start final)
    (finished : finish final = .ok result) (rest : List Char) (position : Position) :
    ∃ after, fields member start finish
      ⟨'\x7b' :: (inside level true members ++ '\x7d' :: rest), position⟩ =
        .ok (result, ⟨rest, after⟩) := by
  obtain ⟨middle, taken⟩ := memberLoop_gathers gathers
    (enough_steps level members ('\x7d' :: rest)) true rest (position.past '\x7b')
  refine ⟨middle.past '\x7d', placing_ok ?_⟩
  rw [advance_bind, bind_ok ((bounded_eq ..).trans taken)]
  simp only [finished]
  rfl

end

/-- The members of an untyped object are gathered in reverse if their keys are distinct. -/
theorem gathers_members {read : Reader Json} {level : Nat} {members : Members}
    (recovers : ∀ item ∈ members, read.Recovers (render .pretty level item.2) item.2)
    (gathered : Members) (distinct : (members.map Prod.fst ++ gathered.map Prod.fst).Nodup) :
    Gathers (member read) level members gathered (members.reverse ++ gathered) := by
  induction members generalizing gathered with
  | nil => exact .nil gathered
  | cons item members ih =>
    rcases item with ⟨name, value⟩
    have fresh : name ∉ gathered.map Prod.fst := fun old =>
      (List.nodup_cons.mp distinct).1 (List.mem_append_right _ old)
    have others : (members.map Prod.fst ++ ((name, value) :: gathered).map Prod.fst).Nodup :=
      List.perm_middle.nodup_iff.mpr distinct
    have later := ih (fun item among => recovers item (List.mem_cons_of_mem _ among))
      ((name, value) :: gathered) others
    rw [List.reverse_cons, List.append_assoc, List.singleton_append]
    refine .cons rfl ?_ later
    rw [← assignReversed_of_fresh fresh]
    exact (recovers _ (List.mem_cons_self ..)).map fun value =>
      Members.assignReversed name value gathered

end Reader

open Reader

/-- A value without reals that opens at most so many containers at once. -/
inductive Plain : Nat → Json → Prop where
  | null (depth : Nat) : Plain depth .null
  | bool (depth : Nat) (value : Bool) : Plain depth (.bool value)
  | integer (depth : Nat) (value : Int) : Plain depth (.number (.integer value))
  | string (depth : Nat) (text : String) : Plain depth (.string text)
  | array {depth : Nat} {items : List Json} (each : ∀ item ∈ items, Plain depth item) :
      Plain (depth + 1) (.array items)
  | object {depth : Nat} {members : Members} (each : ∀ member ∈ members, Plain depth member.2) :
      Plain (depth + 1) (.object members)

mutual
/-- Whether a value has no reals and opens at most so many containers at once. -/
def isPlain : Nat → Json → Bool
  | _, .null => true
  | _, .bool _ => true
  | _, .number (.integer _) => true
  | _, .number (.real _) => false
  | _, .string _ => true
  | 0, .array _ => false
  | depth + 1, .array items => itemsPlain depth items
  | 0, .object _ => false
  | depth + 1, .object members => membersPlain depth members
/-- Whether all items of an array are plain. -/
def itemsPlain : Nat → List Json → Bool
  | _, [] => true
  | depth, item :: rest => item.isPlain depth && itemsPlain depth rest
/-- Whether all members of an object are plain. -/
def membersPlain : Nat → List (String × Json) → Bool
  | _, [] => true
  | depth, (_, value) :: rest => value.isPlain depth && membersPlain depth rest
end

theorem itemsPlain_iff {depth : Nat} {items : List Json} :
    itemsPlain depth items = true ↔ ∀ item ∈ items, item.isPlain depth = true := by
  induction items with
  | nil => simp [itemsPlain]
  | cons item rest ih => simp [itemsPlain, ih]

theorem membersPlain_iff {depth : Nat} {members : Members} :
    membersPlain depth members = true ↔ ∀ member ∈ members, member.2.isPlain depth = true := by
  induction members with
  | nil => simp [membersPlain]
  | cons member rest ih => simp [membersPlain, ih]

theorem isPlain_iff {depth : Nat} {value : Json} : value.isPlain depth = true ↔ Plain depth value := by
  induction value using Json.induction generalizing depth with
  | step value ih =>
    cases value with
    | null => simp [isPlain, Plain.null]
    | bool value => simp [isPlain, Plain.bool]
    | number value =>
      cases value with
      | integer value => simp [isPlain, Plain.integer]
      | real value =>
        rw [isPlain]
        exact ⟨nofun, nofun⟩
    | string text => simp [isPlain, Plain.string]
    | array items =>
      cases depth with
      | zero =>
        rw [isPlain]
        exact ⟨nofun, nofun⟩
      | succ depth =>
        rw [isPlain, itemsPlain_iff]
        constructor
        · exact fun each => .array fun item among => (ih item among).mp (each item among)
        · intro plain item among
          cases plain with
          | array each => exact (ih item among).mpr (each item among)
    | object members =>
      cases depth with
      | zero =>
        rw [isPlain]
        exact ⟨nofun, nofun⟩
      | succ depth =>
        have inner : ∀ member ∈ members, member.2.isPlain depth = true ↔ Plain depth member.2 :=
          fun member among => ih member.2 (List.mem_map_of_mem among)
        rw [isPlain, membersPlain_iff]
        constructor
        · exact fun each => .object fun member among =>
            (inner member among).mp (each member among)
        · intro plain member among
          cases plain with
          | object each => exact (inner member among).mpr (each member among)

instance (depth : Nat) (value : Json) : Decidable (Plain depth value) :=
  decidable_of_iff _ isPlain_iff

namespace Plain

variable {depth : Nat} {value : Json}

theorem starts (plain : Plain depth value) (level : Nat) :
    Starts (render .pretty level value) := by
  cases plain with
  | null => exact ⟨'n', _, by rw [render]; rfl, by decide, by decide⟩
  | bool _ value =>
    cases value with
    | true => exact ⟨'t', _, by rw [render]; rfl, by decide, by decide⟩
    | false => exact ⟨'f', _, by rw [render]; rfl, by decide, by decide⟩
  | integer _ value =>
    obtain ⟨c, tail, written, numeric⟩ := toString_cons value
    refine ⟨c, tail, by rw [render, Number.render, written], numeric.solid, ?_⟩
    rintro rfl
    rcases numeric with bad | bad <;> exact absurd bad (by decide)
  | string _ text =>
    have front := toList_quote_append text []
    rw [List.append_nil] at front
    exact ⟨'"', _, by rw [render, front], by decide, by decide⟩
  | @array _ items =>
    have front := toList_render_array level items []
    rw [List.append_nil] at front
    exact ⟨'[', _, front, by decide, by decide⟩
  | @object _ members =>
    have front := toList_render_object level members []
    rw [List.append_nil] at front
    exact ⟨'\x7b', _, front, by decide, by decide⟩

/-- A printed value is read back as it was. -/
theorem recovers (plain : Plain depth value) (proper : value.Proper) (level : Nat) :
    (Reader.value depth).Recovers (render .pretty level value) value := by
  induction plain generalizing level with
  | null depth => cases depth <;> exact (valueWith_null _ level).recovers
  | bool depth value => cases depth <;> exact (valueWith_bool _ level value).recovers
  | integer depth value =>
    cases proper with
    | integer low high => cases depth <;> exact valueWith_integer _ level low high
  | string depth text => cases depth <;> exact (valueWith_string _ level text).recovers
  | @array depth items each ih =>
    intro blank allBlank rest ends position
    obtain ⟨middle, begun⟩ := blanks_peek allBlank (c := '[') rfl
      (between level true items ++ ']' :: rest) position
    have each' : ∀ item ∈ items, item.Proper := fun item => proper.of_mem_children
    obtain ⟨after, taken⟩ := list_recovers id
      (fun item among => (each item among).starts (level + 1))
      (fun item among => ih item among (each' item among) (level + 1)) rest middle
    rw [toList_render_array]
    rw [List.map_id] at taken
    exact ⟨after, (begun _).trans (bind_ok taken)⟩
  | @object depth members each ih =>
    intro blank allBlank rest ends position
    obtain ⟨middle, begun⟩ := blanks_peek allBlank (c := '\x7b') rfl
      (inside level true members ++ '\x7d' :: rest) position
    have gathers := gathers_members (fun member among =>
      ih member among (proper.of_mem_children (List.mem_map_of_mem among)) (level + 1)) []
      (by simpa using proper.distinct)
    rw [List.append_nil] at gathers
    obtain ⟨after, taken⟩ := fields_gathers (fun gathered => .ok (Json.object gathered.reverse))
      gathers rfl rest middle
    rw [toList_render_object]
    rw [List.reverse_reverse] at taken
    exact ⟨after, (begun _).trans taken⟩

end Plain

/-- A whole text that is printed for a value is read as what its reader recovers. -/
theorem readText_pretty {α : Type} {read : Reader α} {value : Json} {result : α}
    (recovers : read.Recovers (render .pretty 0 value) result) :
    readText read (value.pretty ++ "\n") = .ok result := by
  obtain ⟨after, taken⟩ := recovers [] nofun ['\n'] (ends_cons (by decide) _) .start
  rw [readText_eq_ok_iff, ofString_pretty_line]
  exact ⟨_, taken, rfl⟩

end TemplateLint.Json
