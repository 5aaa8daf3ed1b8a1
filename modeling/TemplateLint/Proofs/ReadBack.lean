import Mathlib
import TemplateLint.Json.Printer
import TemplateLint.Json.Reader

/-! # Printed trees of texts are read back

A catalog that only texts were added to is a tree: objects around texts. Such a tree is read back
from what is printed for it if it is not too deep, and not at all otherwise. Every reader of a part
takes the printed part off the front of whatever follows, or stops there; only places are left open.
The loops have steps enough because each of their steps consumes a character.
-/

namespace TemplateLint.Json

namespace Reader

variable {α β : Type}

/-! ## Strings -/

theorem bind_ok {read : Reader α} {next : α → Reader β} {cursor after : Cursor} {a : α}
    (taken : read cursor = .ok (a, after)) : (read >>= next) cursor = next a after := by
  simp only [bind, StateT.bind, taken, Except.bind]

theorem bind_congr_at {read other : Reader α} {cursor after : Cursor}
    (same : read cursor = other after) (next : α → Reader β) :
    (read >>= next) cursor = (other >>= next) after := by
  simp only [bind, StateT.bind, same]

theorem bind_error {read : Reader α} {cursor : Cursor} {stop : Stop}
    (stopped : read cursor = .error stop) (next : α → Reader β) :
    (read >>= next) cursor = .error stop := by
  simp only [bind, StateT.bind, stopped, Except.bind]

theorem bind_ok_iff {read : Reader α} {next : α → Reader β} {cursor after : Cursor} {b : β} :
    (read >>= next) cursor = .ok (b, after) ↔
      ∃ a middle, read cursor = .ok (a, middle) ∧ next a middle = .ok (b, after) := by
  cases taken : read cursor with
  | error stop => simp [bind_error taken]
  | ok result =>
    obtain ⟨a, middle⟩ := result
    simp [bind_ok taken]

theorem peek_bind (next : Option Char → Reader α) (c : Char) (rest : List Char)
    (position : Position) :
    (peek >>= next) ⟨c :: rest, position⟩ = next (some c) ⟨c :: rest, position⟩ := rfl

theorem advance_bind (next : Unit → Reader α) (c : Char) (rest : List Char)
    (position : Position) :
    (advance >>= next) ⟨c :: rest, position⟩ = next () ⟨rest, position.past c⟩ := rfl

theorem bounded_eq (loop : Steps → Reader α) (rest : List Char) (position : Position) :
    bounded loop ⟨rest, position⟩ = loop (' ' :: rest) ⟨rest, position⟩ := rfl

theorem hexNumber?_control {n : Nat} (control : n < 0x20) :
    hexNumber? ['0', '0', hexDigit (n / 16), hexDigit (n % 16)] = some n := by
  revert n
  decide

theorem hexQuad_control {c : Char} (control : c.toNat < 0x20) (tail : List Char)
    (position : Position) :
    hexQuad ⟨'0' :: '0' :: hexDigit (c.toNat / 16) :: hexDigit (c.toNat % 16) :: tail, position⟩ =
      .ok (c.toNat, ⟨tail, ⟨position.line, position.column + 4⟩⟩) := by
  simp [hexQuad, hexNumber?_control control]

theorem unicodeEscape_control {c : Char} (control : c.toNat < 0x20) (tail : List Char)
    (position : Position) :
    ∃ after, unicodeEscape
      ⟨'0' :: '0' :: hexDigit (c.toNat / 16) :: hexDigit (c.toNat % 16) :: tail, position⟩ =
        .ok (c, ⟨tail, after⟩) := by
  have alone : isTrailing c.toNat = false ∧ isLeading c.toNat = false := by
    simp only [isTrailing, isLeading, Bool.and_eq_false_iff, decide_eq_false_iff_not]
    omega
  refine ⟨⟨position.line, position.column + 4⟩, ?_⟩
  rw [unicodeEscape, bind_ok (hexQuad_control control tail position)]
  simp only [alone.1, alone.2, Bool.false_eq_true, if_false, Char.ofNat_toNat]
  rfl

/-- A character is read back from its written form. -/
theorem stringChars_escapeChar (c step : Char) (steps : Steps) (tail : List Char)
    (position : Position) :
    ∃ after, stringChars (step :: steps) ⟨escapeChar c ++ tail, position⟩ =
      (do return c :: (← stringChars steps)) ⟨tail, after⟩ := by
  unfold escapeChar
  split_ifs with quote backslash newline ret tab backspace formfeed control
  · subst quote; exact ⟨_, rfl⟩
  · subst backslash; exact ⟨_, rfl⟩
  · subst newline; exact ⟨_, rfl⟩
  · subst ret; exact ⟨_, rfl⟩
  · subst tab; exact ⟨_, rfl⟩
  · subst backspace; exact ⟨_, rfl⟩
  · subst formfeed; exact ⟨_, rfl⟩
  · obtain ⟨after, taken⟩ := unicodeEscape_control control tail
      ((position.past '\\').past 'u')
    have run : stringChars (step :: steps) ⟨['\\', 'u', '0', '0', hexDigit (c.toNat / 16),
        hexDigit (c.toNat % 16)] ++ tail, position⟩ =
        (unicodeEscape >>= fun c => do return c :: (← stringChars steps))
          ⟨'0' :: '0' :: hexDigit (c.toNat / 16) :: hexDigit (c.toNat % 16) :: tail,
            (position.past '\\').past 'u'⟩ := rfl
    exact ⟨after, run.trans (bind_ok taken)⟩
  · refine ⟨position.past c, ?_⟩
    rw [List.singleton_append, stringChars, peek_bind]
    simp only [control, if_false]
    rfl

/-- The characters of a text are read back from their written form, given a step for each of them
and one for the closing quote. -/
theorem stringChars_quoted (text : List Char) (steps : Steps) (enough : text.length < steps.length)
    (rest : List Char) (position : Position) :
    ∃ after, stringChars steps ⟨text.flatMap escapeChar ++ '"' :: rest, position⟩ =
      .ok (text, ⟨rest, after⟩) := by
  induction text generalizing steps position with
  | nil =>
    obtain ⟨step, steps, rfl⟩ := List.exists_cons_of_length_pos enough
    exact ⟨_, rfl⟩
  | cons c text ih =>
    obtain ⟨step, steps, rfl⟩ := List.exists_cons_of_length_pos (Nat.zero_lt_of_lt enough)
    rw [List.flatMap_cons, List.append_assoc]
    obtain ⟨middle, first⟩ := stringChars_escapeChar c step steps
      (text.flatMap escapeChar ++ '"' :: rest) position
    obtain ⟨after, others⟩ := ih steps (Nat.lt_of_succ_lt_succ enough) middle
    exact ⟨after, first.trans (bind_ok others)⟩

theorem length_le_length_flatMap_escapeChar (text : List Char) :
    text.length ≤ (text.flatMap escapeChar).length := by
  induction text with
  | nil => exact Nat.le_refl 0
  | cons c text ih =>
    have one : 1 ≤ (escapeChar c).length := by
      unfold escapeChar
      split_ifs <;> simp
    simp only [List.flatMap_cons, List.length_cons, List.length_append]
    omega

theorem length_lt_steps (text : String) (rest : List Char) :
    text.toList.length < (' ' :: (text.toList.flatMap escapeChar ++ '"' :: rest)).length := by
  have := length_le_length_flatMap_escapeChar text.toList
  simp only [List.length_cons, List.length_append]
  omega

/-- A text is read back from its written form, behind the opening quote. -/
theorem stringBody_quoted (text : String) (rest : List Char) (position : Position) :
    ∃ after, stringBody ⟨text.toList.flatMap escapeChar ++ '"' :: rest, position⟩ =
      .ok (text, ⟨rest, after⟩) := by
  obtain ⟨after, taken⟩ := stringChars_quoted text.toList _ (length_lt_steps text rest) rest position
  refine ⟨after, ?_⟩
  rw [stringBody, bind_ok ((bounded_eq ..).trans taken), String.ofList_toList]
  rfl

/-! ## Members -/

/-- A reader takes a text with blanks before it off the front of whatever follows. -/
def Takes (read : Reader α) (text : String) (result : α) : Prop :=
  ∀ blank, (∀ c ∈ blank, Cursor.isBlank c = true) → ∀ rest position,
    ∃ after, read ⟨blank ++ (text.toList ++ rest), position⟩ = .ok (result, ⟨rest, after⟩)

/-- A reader stops at a text with blanks before it, whatever follows. -/
def Stops (read : Reader α) (text : String) : Prop :=
  ∀ blank, (∀ c ∈ blank, Cursor.isBlank c = true) → ∀ rest position,
    ∃ stop, read ⟨blank ++ (text.toList ++ rest), position⟩ = .error stop

theorem skipBlanks_append {blank : List Char} (allBlank : ∀ c ∈ blank, Cursor.isBlank c = true)
    {c : Char} (solid : Cursor.isBlank c = false) (rest : List Char) (position : Position) :
    ∃ after, Cursor.skipBlanks ⟨blank ++ c :: rest, position⟩ = ⟨c :: rest, after⟩ := by
  induction blank generalizing position with
  | nil => exact ⟨position, by simp [Cursor.skipBlanks, Cursor.skipChars, solid]⟩
  | cons head blank ih =>
    obtain ⟨after, skipped⟩ := ih (fun c among => allBlank c (List.mem_cons_of_mem _ among))
      (position.past head)
    refine ⟨after, ?_⟩
    rw [← skipped]
    simp [Cursor.skipBlanks, Cursor.skipChars, allBlank head (List.mem_cons_self ..)]

theorem blanks_append {blank : List Char} (allBlank : ∀ c ∈ blank, Cursor.isBlank c = true)
    {c : Char} (solid : Cursor.isBlank c = false) (rest : List Char) (position : Position) :
    ∃ after, blanks ⟨blank ++ c :: rest, position⟩ = .ok ((), ⟨c :: rest, after⟩) := by
  obtain ⟨after, skipped⟩ := skipBlanks_append allBlank solid rest position
  exact ⟨after, by rw [blanks, skipped]⟩

theorem isBlank_newline (level : Nat) :
    ∀ c ∈ (Form.pretty.newline level).toList, Cursor.isBlank c = true := by
  intro c among
  simp only [Form.pretty, String.toList_append, String.toList_ofList, List.mem_append] at among
  rcases among with first | indent
  · obtain rfl : c = '\n' := by simpa using first
    rfl
  · obtain rfl := List.eq_of_mem_replicate indent
    rfl

theorem toList_quote_append (name : String) (rest : List Char) :
    (quote name).toList ++ rest = '"' :: (name.toList.flatMap escapeChar ++ '"' :: rest) := by
  simp [quote]

/-- A key is read back from its written form. -/
theorem key_quoted (name : String) (rest : List Char) (position : Position) :
    ∃ after, key ⟨(quote name).toList ++ rest, position⟩ = .ok (name, ⟨rest, after⟩) := by
  obtain ⟨after, taken⟩ := stringBody_quoted name rest (position.past '"')
  rw [toList_quote_append]
  exact ⟨after, taken⟩

/-- How a member of an untyped object is read. -/
def member (read : Reader Json) (name : String) (gathered : Members) :
    Except DecodeError (Reader Members) :=
  .ok do return Members.assignReversed name (← read) gathered

theorem assignReversed_of_fresh {name : String} {gathered : Members}
    (fresh : name ∉ gathered.map Prod.fst) (value : Json) :
    Members.assignReversed name value gathered = (name, value) :: gathered := by
  refine if_neg fun present => fresh ?_
  obtain ⟨other, among, same⟩ := List.any_eq_true.mp present
  exact List.mem_map.mpr ⟨other, among, beq_iff_eq.mp same⟩

/-- What stands before the line of a member. -/
def separator (first : Bool) : List Char := if first then [] else [',']

section

variable {σ : Type} {member : String → σ → Except DecodeError (Reader σ)} {gathered : σ}
  {name : String}

/-- The reader of a member comes to its value. -/
theorem entry_quoted {read : Reader σ} (calls : member name gathered = .ok read)
    (rest : List Char) (position : Position) :
    ∃ after, entry member gathered ⟨(quote name).toList ++ ':' :: rest, position⟩ =
      read ⟨rest, after⟩ := by
  obtain ⟨middle, keyRead⟩ := key_quoted name (':' :: rest) position
  have passed : colon ⟨':' :: rest, middle⟩ = .ok ((), ⟨rest, middle.past ':'⟩) := rfl
  refine ⟨middle.past ':', ?_⟩
  rw [entry, bind_ok keyRead]
  simp only [calls]
  exact bind_ok passed

/-- The loop comes to a member. -/
theorem memberLoop_line (member : String → σ → Except DecodeError (Reader σ)) (gathered : σ)
    (name : String) (level : Nat) (step : Char) (steps : Steps) (first : Bool)
    (rest : List Char) (position : Position) :
    ∃ after, memberLoop member (step :: steps) first gathered
      ⟨separator first ++ ((Form.pretty.newline level).toList ++ ((quote name).toList ++ rest)),
        position⟩ =
        (entry member gathered >>= memberLoop member steps false)
          ⟨(quote name).toList ++ rest, after⟩ := by
  rw [toList_quote_append]
  cases first with
  | true =>
    obtain ⟨after, passed⟩ := blanks_append (isBlank_newline level) (c := '"') rfl
      (name.toList.flatMap escapeChar ++ '"' :: rest) position
    exact ⟨after, bind_ok passed⟩
  | false =>
    obtain ⟨after, passed⟩ := blanks_append (isBlank_newline level) (c := '"') rfl
      (name.toList.flatMap escapeChar ++ '"' :: rest) (position.past ',')
    have here (tail : List Char) : blanks ⟨',' :: tail, position⟩ =
        .ok ((), ⟨',' :: tail, position⟩) := rfl
    refine ⟨after, ?_⟩
    rw [separator, if_neg (by decide), List.singleton_append, memberLoop, bind_ok (here _),
      peek_bind]
    change (advance >>= fun _ => blanks >>= _) _ = _
    rw [advance_bind]
    exact bind_ok passed

/-- The loop comes to the value of a member. -/
theorem memberLoop_entry {read : Reader σ} (calls : member name gathered = .ok read)
    (level : Nat) (step : Char) (steps : Steps) (first : Bool) (rest : List Char)
    (position : Position) :
    ∃ after, memberLoop member (step :: steps) first gathered
      ⟨separator first ++ ((Form.pretty.newline level).toList ++
        ((quote name).toList ++ ':' :: rest)), position⟩ =
        (read >>= memberLoop member steps false) ⟨rest, after⟩ := by
  obtain ⟨middle, begun⟩ := memberLoop_line member gathered name level step steps first
    (':' :: rest) position
  obtain ⟨after, entered⟩ := entry_quoted calls rest middle
  exact ⟨after, begun.trans (bind_congr_at entered _)⟩

end

/-- What stands between the brackets of an object, or behind its first members. -/
def inside (level : Nat) : Bool → Members → List Char
  | true, [] => []
  | false, [] => (Form.pretty.newline level).toList
  | first, (name, value) :: members =>
    separator first ++ ((Form.pretty.newline (level + 1)).toList ++ ((quote name).toList ++
      ':' :: ' ' :: ((render .pretty (level + 1) value).toList ++ inside level false members)))

theorem isBlank_inside_nil (level : Nat) (first : Bool) :
    ∀ c ∈ inside level first [], Cursor.isBlank c = true := by
  cases first with
  | true => simp [inside]
  | false => exact isBlank_newline level

theorem inside_cons (level : Nat) (first : Bool) (name : String) (value : Json)
    (members : Members) (rest : List Char) :
    inside level first ((name, value) :: members) ++ rest =
      separator first ++ ((Form.pretty.newline (level + 1)).toList ++ ((quote name).toList ++
        ':' :: ([' '] ++ ((render .pretty (level + 1) value).toList ++
          (inside level false members ++ rest))))) := by
  simp [inside]

theorem length_le_length_inside (level : Nat) (first : Bool) (members : Members) :
    members.length ≤ (inside level first members).length := by
  induction members generalizing first with
  | nil => exact Nat.zero_le _
  | cons item members ih =>
    rcases item with ⟨name, value⟩
    have others := ih false
    simp only [inside, List.length_append, List.length_cons]
    omega

theorem toList_render_object (level : Nat) (members : Members) (rest : List Char) :
    (render .pretty level (.object members)).toList ++ rest =
      '\x7b' :: (inside level true members ++ '\x7d' :: rest) := by
  have behind (members : Members) :
      (renderMembers .pretty (level + 1) members).flatMap String.toList ++
        (Form.pretty.newline level).toList = inside level false members := by
    induction members with
    | nil => rfl
    | cons item members ih => simp [inside, ← ih, renderMembers, separator, Form.pretty]
  cases members with
  | nil => simp [render, inside]
  | cons item members => simp [render, inside, ← behind, separator, Form.pretty]

/-- The loop comes to the closing bracket. -/
theorem memberLoop_close {σ : Type} (member : String → σ → Except DecodeError (Reader σ))
    (gathered : σ) (level : Nat) (step : Char) (steps : Steps) (first : Bool) (rest : List Char)
    (position : Position) :
    ∃ after, memberLoop member (step :: steps) first gathered
      ⟨inside level first [] ++ '\x7d' :: rest, position⟩ =
        .ok (gathered, ⟨'\x7d' :: rest, after⟩) := by
  obtain ⟨after, passed⟩ := blanks_append (isBlank_inside_nil level first) (c := '\x7d') rfl rest
    position
  exact ⟨after, bind_ok passed⟩

section

variable {read : Reader Json} {level : Nat} {members : Members} {steps : Steps}

/-- Members are read back from their written form if their values are, by induction on them. Their
keys are new, so each of them goes in front of those gathered before. -/
theorem memberLoop_takes
    (takes : ∀ item ∈ members, read.Takes (render .pretty (level + 1) item.2) item.2)
    (gathered : Members) (distinct : (members.map Prod.fst ++ gathered.map Prod.fst).Nodup)
    (enough : members.length < steps.length) (first : Bool) (rest : List Char)
    (position : Position) :
    ∃ after, memberLoop (member read) steps first gathered
      ⟨inside level first members ++ '\x7d' :: rest, position⟩ =
        .ok (members.reverse ++ gathered, ⟨'\x7d' :: rest, after⟩) := by
  induction members generalizing steps gathered first position with
  | nil =>
    obtain ⟨step, steps, rfl⟩ := List.exists_cons_of_length_pos enough
    exact memberLoop_close (member read) gathered level step steps first rest position
  | cons item members ih =>
    rcases item with ⟨name, value⟩
    obtain ⟨step, steps, rfl⟩ := List.exists_cons_of_length_pos (Nat.zero_lt_of_lt enough)
    have fresh : name ∉ gathered.map Prod.fst := fun old =>
      (List.nodup_cons.mp distinct).1 (List.mem_append_right _ old)
    have others : (members.map Prod.fst ++ ((name, value) :: gathered).map Prod.fst).Nodup :=
      List.perm_middle.nodup_iff.mpr distinct
    rw [inside_cons]
    have calls : member read name gathered =
        .ok do return Members.assignReversed name (← read) gathered := rfl
    obtain ⟨start, begun⟩ := memberLoop_entry calls (level + 1) step steps first
      ([' '] ++ ((render .pretty (level + 1) value).toList ++
        (inside level false members ++ '\x7d' :: rest))) position
    obtain ⟨middle, taken⟩ := takes _ (List.mem_cons_self ..) [' '] (by simp [Cursor.isBlank])
      (inside level false members ++ '\x7d' :: rest) start
    obtain ⟨after, finished⟩ := ih (fun item among => takes item (List.mem_cons_of_mem _ among))
      ((name, value) :: gathered) others (Nat.lt_of_succ_lt_succ enough) false middle
    refine ⟨after, begun.trans ((bind_ok (bind_ok taken)).trans ?_)⟩
    rw [assignReversed_of_fresh fresh, finished, List.reverse_cons, List.append_assoc,
      List.singleton_append]

/-- The loop stops if one of the values makes it stop. -/
theorem memberLoop_stops
    (each : ∀ item ∈ members, read.Takes (render .pretty (level + 1) item.2) item.2 ∨
      read.Stops (render .pretty (level + 1) item.2))
    (stops : ∃ item ∈ members, read.Stops (render .pretty (level + 1) item.2))
    (gathered : Members) (enough : members.length < steps.length) (first : Bool)
    (rest : List Char) (position : Position) :
    ∃ stop, memberLoop (member read) steps first gathered
      ⟨inside level first members ++ '\x7d' :: rest, position⟩ = .error stop := by
  induction members generalizing steps gathered first position with
  | nil => simp at stops
  | cons item members ih =>
    rcases item with ⟨name, value⟩
    obtain ⟨step, steps, rfl⟩ := List.exists_cons_of_length_pos (Nat.zero_lt_of_lt enough)
    rw [inside_cons]
    have calls : member read name gathered =
        .ok do return Members.assignReversed name (← read) gathered := rfl
    obtain ⟨start, begun⟩ := memberLoop_entry calls (level + 1) step steps first
      ([' '] ++ ((render .pretty (level + 1) value).toList ++
        (inside level false members ++ '\x7d' :: rest))) position
    -- The value of the first member stops the loop, or one behind it does.
    have here : read.Stops (render .pretty (level + 1) value) ∨
        read.Takes (render .pretty (level + 1) value) value ∧
          ∃ item ∈ members, read.Stops (render .pretty (level + 1) item.2) := by
      obtain ⟨other, among, stops⟩ := stops
      rcases List.mem_cons.mp among with rfl | later
      · exact .inl stops
      · exact (each _ (List.mem_cons_self ..)).symm.imp_right fun takes => ⟨takes, other, later, stops⟩
    rcases here with stops | ⟨takes, later⟩
    · obtain ⟨stop, stopped⟩ := stops [' '] (by simp [Cursor.isBlank])
        (inside level false members ++ '\x7d' :: rest) start
      exact ⟨stop, begun.trans (bind_error (bind_error stopped _) _)⟩
    · obtain ⟨middle, taken⟩ := takes [' '] (by simp [Cursor.isBlank])
        (inside level false members ++ '\x7d' :: rest) start
      obtain ⟨stop, stopped⟩ := ih (fun item among => each item (List.mem_cons_of_mem _ among))
        later (Members.assignReversed name value gathered) (Nat.lt_of_succ_lt_succ enough) false
        middle
      exact ⟨stop, begun.trans ((bind_ok (bind_ok taken)).trans stopped)⟩

end

/-! ## Values -/

theorem placing_ok {close : Cursor → Cursor} {read : Reader α} {cursor after : Cursor} {a : α}
    (taken : read cursor = .ok (a, after)) : placing close read cursor = .ok (a, after) := by
  rw [placing, taken]

theorem of_placing_ok {close : Cursor → Cursor} {read : Reader α} {cursor after : Cursor} {a : α}
    (taken : placing close read cursor = .ok (a, after)) : read cursor = .ok (a, after) := by
  unfold placing at taken
  split at taken
  · cases taken
  · exact taken

theorem placing_error {read : Reader α} {cursor : Cursor} {stop : Stop}
    (stopped : read cursor = .error stop) (close : Cursor → Cursor) :
    ∃ stop, placing close read cursor = .error stop := by
  rw [placing, stopped]
  cases stop with
  | placed problem position => exact ⟨_, rfl⟩
  | unplaced error cursor => exact ⟨_, rfl⟩

/-- A reader that refuses a quote stops at a printed text. -/
theorem stops_at_quote {next : Option Char → Reader α} (level : Nat) (text : String)
    (refuses : ∀ cursor, ∃ stop, next (some '"') cursor = .error stop) :
    (blanks >>= fun _ => peek >>= next).Stops (render .pretty level (.string text)) := by
  intro blank allBlank rest position
  rw [render, toList_quote_append]
  obtain ⟨middle, passed⟩ := blanks_append allBlank (c := '"') rfl
    (text.toList.flatMap escapeChar ++ '"' :: rest) position
  rw [bind_ok passed, peek_bind]
  exact refuses _

/-- A reader that refuses an opening bracket stops at a printed object. -/
theorem stops_at_bracket {next : Option Char → Reader α} (level : Nat) (members : Members)
    (refuses : ∀ cursor, ∃ stop, next (some '\x7b') cursor = .error stop) :
    (blanks >>= fun _ => peek >>= next).Stops (render .pretty level (.object members)) := by
  intro blank allBlank rest position
  rw [toList_render_object]
  obtain ⟨middle, passed⟩ := blanks_append allBlank (c := '\x7b') rfl
    (inside level true members ++ '\x7d' :: rest) position
  rw [bind_ok passed, peek_bind]
  exact refuses _

/-- A text is read back as a value, whatever depth is left. -/
theorem valueWith_string (inner : Option (Reader Json)) (level : Nat) (text : String) :
    (valueWith inner).Takes (render .pretty level (.string text)) (.string text) := by
  intro blank allBlank rest position
  obtain ⟨middle, passed⟩ := blanks_append allBlank (c := '"') rfl
    (text.toList.flatMap escapeChar ++ '"' :: rest) position
  obtain ⟨after, taken⟩ := stringBody_quoted text rest (middle.past '"')
  refine ⟨after, ?_⟩
  rw [render, toList_quote_append]
  unfold valueWith
  rw [bind_ok passed, peek_bind]
  change (advance >>= fun _ => stringBody >>= _) _ = _
  rw [advance_bind, bind_ok taken]
  rfl

/-- The reader of values comes to the members of an object, if it may open one. -/
theorem valueWith_object (read : Reader Json) (level : Nat) (members : Members) {blank : List Char}
    (allBlank : ∀ c ∈ blank, Cursor.isBlank c = true) (rest : List Char) (position : Position) :
    ∃ after, valueWith (some read)
      ⟨blank ++ ((render .pretty level (.object members)).toList ++ rest), position⟩ =
        placing Cursor.closeObject (do
          let gathered ← bounded fun steps => memberLoop (member read) steps true []
          advance
          return Json.object gathered.reverse) ⟨inside level true members ++ '\x7d' :: rest, after⟩ := by
  obtain ⟨middle, passed⟩ := blanks_append allBlank (c := '\x7b') rfl
    (inside level true members ++ '\x7d' :: rest) position
  refine ⟨middle.past '\x7b', ?_⟩
  rw [toList_render_object, valueWith, bind_ok passed, peek_bind]
  rfl

section

variable {read : Reader Json} {level : Nat} {members : Members}

theorem enough_steps (level : Nat) (members : Members) (rest : List Char) :
    members.length < (' ' :: (inside level true members ++ rest)).length := by
  have := length_le_length_inside level true members
  simp only [List.length_cons, List.length_append]
  omega

theorem valueWith_object_takes
    (takes : ∀ item ∈ members, read.Takes (render .pretty (level + 1) item.2) item.2)
    (distinct : (members.map Prod.fst).Nodup) :
    (valueWith (some read)).Takes (render .pretty level (.object members)) (.object members) := by
  intro blank allBlank rest position
  obtain ⟨start, begun⟩ := valueWith_object read level members allBlank rest position
  obtain ⟨middle, gathered⟩ := memberLoop_takes takes [] (by simpa using distinct)
    (enough_steps level members ('\x7d' :: rest)) true rest start
  refine ⟨middle.past '\x7d', begun.trans (placing_ok ?_)⟩
  rw [bind_ok ((bounded_eq ..).trans gathered), advance_bind, List.append_nil, List.reverse_reverse]
  rfl

theorem valueWith_object_stops
    (each : ∀ item ∈ members, read.Takes (render .pretty (level + 1) item.2) item.2 ∨
      read.Stops (render .pretty (level + 1) item.2))
    (stops : ∃ item ∈ members, read.Stops (render .pretty (level + 1) item.2)) :
    (valueWith (some read)).Stops (render .pretty level (.object members)) := by
  intro blank allBlank rest position
  obtain ⟨start, begun⟩ := valueWith_object read level members allBlank rest position
  obtain ⟨stop, stopped⟩ := memberLoop_stops each stops []
    (enough_steps level members ('\x7d' :: rest)) true rest start
  have loop := bounded_eq (fun steps => memberLoop (member read) steps true [])
    (inside level true members ++ '\x7d' :: rest) start
  obtain ⟨stop, stopped⟩ :=
    placing_error (bind_error (loop.trans stopped) _) Cursor.closeObject
  exact ⟨stop, begun.trans stopped⟩

/-- An object that may not be opened is too deep. -/
theorem valueWith_none_stops (level : Nat) (members : Members) :
    (valueWith none).Stops (render .pretty level (.object members)) := by
  unfold valueWith
  exact stops_at_bracket level members fun _ => ⟨_, rfl⟩

end

end Reader

/-- A tree of texts: objects with distinct keys around texts, with a bound on how many of them are
open at once. -/
inductive TextTree : Nat → Json → Prop where
  | text (depth : Nat) (text : String) : TextTree depth (.string text)
  | object {depth : Nat} {members : Members} (distinct : (members.map Prod.fst).Nodup)
      (values : ∀ item ∈ members, TextTree depth item.2) : TextTree (depth + 1) (.object members)

theorem TextTree.takes {depth : Nat} {value : Json} (tree : TextTree depth value) (level : Nat) :
    (Reader.value depth).Takes (render .pretty level value) value := by
  induction tree generalizing level with
  | text depth text =>
    cases depth with
    | zero => exact Reader.valueWith_string none level text
    | succ depth => exact Reader.valueWith_string _ level text
  | object distinct _ ih =>
    exact Reader.valueWith_object_takes (fun item among => ih item among (level + 1)) distinct

/-- A reader that may not open enough objects stops at a tree of texts. -/
theorem TextTree.stops {depth bound : Nat} {value : Json} (tree : TextTree depth value)
    (deep : ¬ TextTree bound value) (level : Nat) :
    (Reader.value bound).Stops (render .pretty level value) := by
  induction tree generalizing bound level with
  | text depth text => exact absurd (.text bound text) deep
  | @object depth members distinct values ih =>
    cases bound with
    | zero => exact Reader.valueWith_none_stops level members
    | succ bound =>
      refine Reader.valueWith_object_stops (fun item among => ?_) ?_
      · by_cases fits : TextTree bound item.2
        · exact .inl (fits.takes (level + 1))
        · exact .inr (ih item among fits (level + 1))
      · by_contra none
        refine deep (.object distinct fun item among => ?_)
        by_contra tooDeep
        exact none ⟨item, among, ih item among tooDeep (level + 1)⟩

theorem ofString_pretty_line (value : Json) :
    Cursor.ofString (value.pretty ++ "\n") =
      ⟨[] ++ ((render .pretty 0 value).toList ++ ['\n']), .start⟩ := by
  rw [Cursor.ofString, String.toList_append]
  rfl

theorem readText_eq_ok_iff {α : Type} {reader : Reader α} {text : String} {result : α} :
    readText reader text = .ok result ↔
      ∃ after, reader (.ofString text) = .ok (result, after) ∧ after.skipBlanks.rest = [] := by
  unfold readText
  cases reader (.ofString text) with
  | error stop => simp
  | ok answer =>
    rcases answer with ⟨found, after⟩
    by_cases ended : after.skipBlanks.rest = []
    · simp [ended]
    · simp only [List.isEmpty_iff, ended, if_false, reduceCtorEq, false_iff]
      rintro ⟨_, ⟨⟩, ended'⟩
      exact ended ended'

/-- A printed tree of texts is read back as it was, if the reader may open enough objects. -/
theorem TextTree.parse_iff {depth : Nat} {value result : Json} (tree : TextTree depth value) :
    Json.parse (value.pretty ++ "\n") = .ok result ↔
      result = value ∧ TextTree Reader.depthLimit value := by
  rw [Json.parse, readText, ofString_pretty_line]
  by_cases fits : TextTree Reader.depthLimit value
  · obtain ⟨after, taken⟩ := fits.takes 0 [] (by simp) ['\n'] .start
    have ended : (Cursor.skipBlanks ⟨['\n'], after⟩).rest = [] := rfl
    simp only [taken, ended, List.isEmpty_nil, if_true, Except.ok.injEq, fits, and_true]
    exact eq_comm
  · obtain ⟨stop, stopped⟩ := tree.stops fits 0 [] (by simp) ['\n'] .start
    simp only [stopped, fits, and_false, reduceCtorEq]

end TemplateLint.Json
