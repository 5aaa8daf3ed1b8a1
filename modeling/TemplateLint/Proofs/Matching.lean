import Mathlib
import TemplateLint.Glob

/-! # What a pattern matches

A pattern is matched token by token: a character, a class and `?` stand for one character, `*` for
any text, and `**` for directories. Rows are a way to compute this in one pass for each token. The
row of a text is the row of the text without its first character, with one more entry before it, so
each entry can be told from those behind it.
-/

namespace TemplateLint.Glob

/-- Tokens match a text. -/
inductive Matches : List Token → List Char → Prop where
  | nil : Matches [] []
  | one {token : Token} {tokens : List Token} {c : Char} {text : List Char}
      (holds : token.holds c = true) (rest : Matches tokens text) :
      Matches (token :: tokens) (c :: text)
  | sequence {tokens : List Token} {text : List Char} (before : List Char)
      (rest : Matches tokens text) : Matches (.anySequence :: tokens) (before ++ text)
  | noDirectory {tokens : List Token} {text : List Char} (rest : Matches tokens text) :
      Matches (.anyDirectories :: tokens) text
  | directories {tokens : List Token} {text : List Char} (before : List Char)
      (rest : Matches tokens text) : Matches (.anyDirectories :: tokens) (before ++ '/' :: text)
  | everything {tokens : List Token} (text : List Char) (rest : Matches tokens []) :
      Matches (.anyDirectories :: tokens) text

/-! ## Rows -/

/-- Whether tokens match a text, by their row. -/
def fits (tokens : List Token) (text : List Char) : Bool := (rowOf text tokens).headD false

theorem Token.exists_row_cons (token : Token) (c : Char) (text : List Char) (first : Bool)
    {row : Row} (nonempty : row ≠ []) :
    ∃ entry, token.row (c :: text) (first :: row) = entry :: token.row text row := by
  obtain ⟨second, rest, rfl⟩ := List.exists_cons_of_ne_nil nonempty
  cases token <;> exact ⟨_, rfl⟩

theorem Token.row_ne_nil (token : Token) (text : List Char) {row : Row} (nonempty : row ≠ []) :
    token.row text row ≠ [] := by
  obtain ⟨first, rest, rfl⟩ := List.exists_cons_of_ne_nil nonempty
  cases token <;> cases text <;> simp [Token.row, orLater, behindSlash]

theorem rowOf_ne_nil (text : List Char) (tokens : List Token) : rowOf text tokens ≠ [] := by
  induction tokens with
  | nil => simp [rowOf, emptyRow]
  | cons token rest ih => exact token.row_ne_nil text ih

/-- The row of a text has the row of the text behind its first character behind its first entry. -/
theorem rowOf_cons (c : Char) (text : List Char) (tokens : List Token) :
    rowOf (c :: text) tokens = fits tokens (c :: text) :: rowOf text tokens := by
  have split : ∃ entry, rowOf (c :: text) tokens = entry :: rowOf text tokens := by
    induction tokens with
    | nil => exact ⟨false, rfl⟩
    | cons token rest ih =>
      obtain ⟨first, row⟩ := ih
      obtain ⟨entry, longer⟩ := token.exists_row_cons c text first (rowOf_ne_nil text rest)
      exact ⟨entry, by rw [rowOf, List.foldr_cons, ← rowOf, row, longer]; rfl⟩
  obtain ⟨entry, row⟩ := split
  rw [fits, row]
  rfl

theorem rowOf_nil (tokens : List Token) : rowOf [] tokens = [fits tokens []] := by
  have single : ∃ entry, rowOf [] tokens = [entry] := by
    induction tokens with
    | nil => exact ⟨true, rfl⟩
    | cons token rest ih =>
      obtain ⟨entry, row⟩ := ih
      rw [rowOf, List.foldr_cons, ← rowOf, row]
      cases token <;> exact ⟨_, rfl⟩
  obtain ⟨entry, row⟩ := single
  rw [fits, row]
  rfl

theorem exists_rowOf (text : List Char) (tokens : List Token) :
    ∃ rest, rowOf text tokens = fits tokens text :: rest := by
  cases text with
  | nil => exact ⟨[], rowOf_nil tokens⟩
  | cons c text => exact ⟨rowOf text tokens, rowOf_cons c text tokens⟩

theorem getLastD_rowOf (text : List Char) (tokens : List Token) :
    (rowOf text tokens).getLastD false = fits tokens [] := by
  induction text with
  | nil => rw [rowOf_nil]; rfl
  | cons c text ih =>
    obtain ⟨rest, row⟩ := exists_rowOf text tokens
    rw [row] at ih
    rw [rowOf_cons, row]
    exact ih

/-! ## Entries -/

theorem fits_nil (text : List Char) : fits [] text = text.isEmpty := by
  cases text <;> rfl

theorem fits_cons (token : Token) (tokens : List Token) (text : List Char) :
    fits (token :: tokens) text = (token.row text (rowOf text tokens)).headD false := rfl

/-- A token that stands for one character. -/
def Token.IsSingle (token : Token) : Prop := token ≠ .anySequence ∧ token ≠ .anyDirectories

theorem Token.IsSingle.row_eq {token : Token} (single : token.IsSingle) (text : List Char)
    (row : Row) : token.row text row =
      List.zipWith (fun c later => token.holds c && later) text row.tail ++ [false] := by
  obtain ⟨noSequence, noDirectories⟩ := single
  cases token with
  | anySequence => exact absurd rfl noSequence
  | anyDirectories => exact absurd rfl noDirectories
  | char | anyChar | within | except => rfl

theorem fits_single_nil {token : Token} (single : token.IsSingle) (tokens : List Token) :
    fits (token :: tokens) [] = false := by
  rw [fits_cons, single.row_eq]
  rfl

theorem fits_single_cons {token : Token} (single : token.IsSingle) (tokens : List Token) (c : Char)
    (text : List Char) :
    fits (token :: tokens) (c :: text) = (token.holds c && fits tokens text) := by
  obtain ⟨rest, row⟩ := exists_rowOf text tokens
  rw [fits_cons, single.row_eq, rowOf_cons, List.tail_cons, row]
  rfl

theorem fits_sequence_nil (tokens : List Token) :
    fits (.anySequence :: tokens) [] = fits tokens [] := by
  rw [fits_cons, rowOf_nil]
  simp [Token.row, orLater]

theorem fits_sequence_cons (tokens : List Token) (c : Char) (text : List Char) :
    fits (.anySequence :: tokens) (c :: text) =
      (fits tokens (c :: text) || fits (.anySequence :: tokens) text) := by
  rw [fits_cons, rowOf_cons, fits_cons]
  rfl

/-- Whether tokens match the text behind some slash. -/
def fitsBehindSlash (tokens : List Token) (text : List Char) : Bool :=
  (behindSlash text (rowOf text tokens)).headD false

theorem fitsBehindSlash_nil (tokens : List Token) : fitsBehindSlash tokens [] = false := by
  rw [fitsBehindSlash, rowOf_nil]
  rfl

theorem fitsBehindSlash_cons (tokens : List Token) (c : Char) (text : List Char) :
    fitsBehindSlash tokens (c :: text) =
      (c == '/' && fits tokens text || fitsBehindSlash tokens text) := by
  rw [fitsBehindSlash, rowOf_cons, behindSlash]
  rfl

theorem fits_directories (tokens : List Token) (text : List Char) :
    fits (.anyDirectories :: tokens) text =
      (fits tokens text || fitsBehindSlash tokens text || fits tokens []) := by
  rw [fits_cons, Token.row, getLastD_rowOf, fitsBehindSlash]
  obtain ⟨rest, row⟩ := exists_rowOf text tokens
  rw [row]
  cases text <;> simp [behindSlash]

theorem fits_sequence_iff (tokens : List Token) (text : List Char) :
    fits (.anySequence :: tokens) text = true ↔
      ∃ rest, rest <:+ text ∧ fits tokens rest = true := by
  induction text with
  | nil => simp [fits_sequence_nil]
  | cons c text ih =>
    rw [fits_sequence_cons, Bool.or_eq_true, ih]
    simp only [List.suffix_cons_iff, or_and_right, exists_or, exists_eq_left]

theorem fitsBehindSlash_iff (tokens : List Token) (text : List Char) :
    fitsBehindSlash tokens text = true ↔
      ∃ rest, '/' :: rest <:+ text ∧ fits tokens rest = true := by
  induction text with
  | nil => simp [fitsBehindSlash_nil]
  | cons c text ih =>
    rw [fitsBehindSlash_cons, Bool.or_eq_true, ih]
    simp only [List.suffix_cons_iff, or_and_right, exists_or, List.cons.injEq, Bool.and_eq_true,
      beq_iff_eq, and_assoc, exists_and_left, exists_eq_left, eq_comm (a := '/')]

/-! ## Matching -/

theorem matches_single_iff {token : Token} (single : token.IsSingle) {tokens : List Token}
    {text : List Char} : Matches (token :: tokens) text ↔
      ∃ c rest, text = c :: rest ∧ token.holds c = true ∧ Matches tokens rest := by
  constructor
  · intro found
    cases found with
    | one holds rest => exact ⟨_, _, rfl, holds, rest⟩
    | sequence => exact absurd rfl single.1
    | noDirectory => exact absurd rfl single.2
    | directories => exact absurd rfl single.2
    | everything => exact absurd rfl single.2
  · rintro ⟨c, rest, rfl, holds, found⟩
    exact .one holds found

theorem matches_sequence_iff {tokens : List Token} {text : List Char} :
    Matches (.anySequence :: tokens) text ↔ ∃ rest, rest <:+ text ∧ Matches tokens rest := by
  constructor
  · intro found
    cases found with
    | one holds => cases holds
    | sequence before rest => exact ⟨_, List.suffix_append .., rest⟩
  · rintro ⟨rest, ⟨before, rfl⟩, found⟩
    exact .sequence before found

theorem matches_directories_iff {tokens : List Token} {text : List Char} :
    Matches (.anyDirectories :: tokens) text ↔
      Matches tokens text ∨ (∃ rest, '/' :: rest <:+ text ∧ Matches tokens rest) ∨
        Matches tokens [] := by
  constructor
  · intro found
    cases found with
    | one holds => cases holds
    | noDirectory rest => exact .inl rest
    | directories before rest => exact .inr (.inl ⟨_, List.suffix_append .., rest⟩)
    | everything _ rest => exact .inr (.inr rest)
  · rintro (found | ⟨rest, ⟨before, rfl⟩, found⟩ | found)
    · exact .noDirectory found
    · exact .directories before found
    · exact .everything text found

/-- Rows tell which texts tokens match. -/
theorem fits_iff (tokens : List Token) (text : List Char) :
    fits tokens text = true ↔ Matches tokens text := by
  induction tokens generalizing text with
  | nil =>
    rw [fits_nil, List.isEmpty_iff]
    exact ⟨fun empty => empty ▸ .nil, fun found => by cases found; rfl⟩
  | cons token tokens ih =>
    by_cases sequence : token = .anySequence
    · rw [sequence, matches_sequence_iff, fits_sequence_iff]
      simp only [ih]
    · by_cases directories : token = .anyDirectories
      · rw [directories, matches_directories_iff, fits_directories, Bool.or_eq_true,
          Bool.or_eq_true, fitsBehindSlash_iff, or_assoc]
        simp only [ih]
      · have single : token.IsSingle := ⟨sequence, directories⟩
        rw [matches_single_iff single]
        cases text with
        | nil => simp [fits_single_nil single]
        | cons c text => simp [fits_single_cons single, ih]

theorem accepts_iff (glob : Glob) (text : String) :
    glob.accepts text = true ↔ Matches glob.tokens text.toList :=
  fits_iff ..

/-! ## Patterns without wildcards -/

/-- A pattern without wildcards and classes is read as its characters. -/
theorem tokensFrom_of_plain {text : List Char} (noStar : '*' ∉ text) (noMark : '?' ∉ text)
    (noClass : '[' ∉ text) {fuel : Nat} (enough : text.length ≤ fuel) (index : Nat)
    (previous : Option Char) :
    tokensFrom fuel index previous text = .ok (text.map .char) := by
  induction text generalizing fuel index previous with
  | nil => cases fuel <;> rfl
  | cons c rest ih =>
    cases fuel with
    | zero => simp at enough
    | succ fuel =>
      rw [List.mem_cons, not_or] at noStar noMark noClass
      rw [tokensFrom, if_neg (Ne.symm noMark.1), if_neg (Ne.symm noStar.1),
        if_neg (Ne.symm noClass.1), ih noStar.2 noMark.2 noClass.2 (by simpa using enough)]
      rfl

theorem parse_of_plain {pattern : String} (noStar : '*' ∉ pattern.toList)
    (noMark : '?' ∉ pattern.toList) (noClass : '[' ∉ pattern.toList) :
    parse pattern = .ok ⟨pattern.toList.map .char⟩ := by
  have enough : pattern.toList.length ≤ pattern.length := String.length_toList.le
  rw [parse, tokensFrom_of_plain noStar noMark noClass enough]
  rfl

/-- Characters match themselves. -/
theorem matches_chars_iff (chars text : List Char) :
    Matches (chars.map .char) text ↔ text = chars := by
  induction chars generalizing text with
  | nil => exact ⟨fun found => by cases found; rfl, fun empty => by rw [empty]; exact .nil⟩
  | cons c chars ih =>
    have single : (Token.char c).IsSingle := by simp [Token.IsSingle]
    rw [List.map_cons, matches_single_iff single]
    simp [Token.holds, ih]

end TemplateLint.Glob
