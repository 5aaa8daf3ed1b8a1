import Mathlib
import TemplateLint.Helper

/-! # Calls are read back

The key of a call may hold anything, braces, blanks and quotes included, and nothing in it is
escaped. A reader therefore knows the end of a key only by the quote that it began with. This is
enough: the quotes of a call are of a kind that its key does not hold, so the next quote of that kind
is the last character before the closing braces.
-/

namespace TemplateLint.Helper

theorem quote?_eq_some_iff {key : String} {quote : Char} :
    quote? key = some quote ↔
      quote = '"' ∧ '"' ∉ key.toList ∨
        quote = '\x27' ∧ '"' ∈ key.toList ∧ '\x27' ∉ key.toList := by
  by_cases double : '"' ∈ key.toList <;> by_cases single : '\x27' ∈ key.toList <;>
    simp [quote?, double, single, eq_comm]

theorem call?_eq_none_iff {key : String} :
    call? key = none ↔ '"' ∈ key.toList ∧ '\x27' ∈ key.toList := by
  by_cases double : '"' ∈ key.toList <;> by_cases single : '\x27' ∈ key.toList <;>
    simp [call?, quote?, double, single]

/-- A character that a key can be quoted with. -/
def isQuote (c : Char) : Bool := c == '"' || c == '\x27'

/-- A call is its key in quotes of a kind that the key does not hold, double ones if it holds
neither. -/
theorem exists_quote_of_call? {key call : String} (called : call? key = some call) :
    ∃ quote, isQuote quote = true ∧ quote ∉ key.toList ∧ (quote = '"' ↔ '"' ∉ key.toList) ∧
      call = "\x7b\x7bt " ++ quote.toString ++ key ++ quote.toString ++ "\x7d\x7d" := by
  obtain ⟨quote, chosen, rfl⟩ := Option.map_eq_some_iff.mp called
  rcases quote?_eq_some_iff.mp chosen with ⟨rfl, absent⟩ | ⟨rfl, double, absent⟩
  · exact ⟨'"', rfl, absent, iff_of_true rfl absent, rfl⟩
  · exact ⟨'\x27', rfl, absent, iff_of_false (by decide) (not_not_intro double), rfl⟩

/-! ## Reading -/

/-- Cut a text at its first character of a kind. -/
def cutAt? (kind : Char → Bool) : List Char → Option (List Char × Char × List Char)
  | [] => none
  | c :: rest =>
    if kind c then some ([], c, rest)
    else (cutAt? kind rest).map fun (before, hit, behind) => (c :: before, hit, behind)

theorem cutAt?_append {kind : Char → Bool} {hit : Char} (found : kind hit = true)
    {before : List Char} (others : ∀ c ∈ before, kind c = false) (behind : List Char) :
    cutAt? kind (before ++ hit :: behind) = some (before, hit, behind) := by
  induction before with
  | nil => rw [List.nil_append, cutAt?, if_pos found]
  | cons c before ih =>
    obtain ⟨other, others⟩ := List.forall_mem_cons.mp others
    rw [List.cons_append, cutAt?, other, if_neg Bool.false_ne_true, ih others, Option.map_some]

/-- Read a call. Its key stands between the first quote behind the opening, of whatever kind, and the
next quote of that kind; what stands behind is left. -/
def read? (text : String) : Option (String × String) := do
  let inside ← text.toList.dropPrefix? "\x7b\x7bt ".toList
  let (_, quote, quoted) ← cutAt? isQuote inside
  let (key, _, behind) ← cutAt? (· == quote) quoted
  return (String.ofList key, String.ofList behind)

/-- A key is read back from between quotes that it does not hold, whatever stands behind them. -/
theorem read?_quoted {quote : Char} (kind : isQuote quote = true) {key : String}
    (absent : quote ∉ key.toList) (behind : String) :
    read? ("\x7b\x7bt " ++ quote.toString ++ key ++ quote.toString ++ behind) =
      some (key, behind) := by
  set quoted := key.toList ++ quote :: behind.toList with inside
  have opened : ("\x7b\x7bt " ++ quote.toString ++ key ++ quote.toString ++ behind).toList.dropPrefix?
      "\x7b\x7bt ".toList = some (quote :: quoted) :=
    List.dropPrefix?_eq_some_iff.mpr ⟨_, by simp [inside], beq_self_eq_true _⟩
  have first : cutAt? isQuote (quote :: quoted) = some ([], quote, quoted) :=
    cutAt?_append kind (List.forall_mem_nil _) quoted
  have next : cutAt? (· == quote) quoted = some (key.toList, quote, behind.toList) := by
    refine cutAt?_append (by simp) (fun c among => ?_) behind.toList
    exact beq_eq_false_iff_ne.mpr fun same => absent (same ▸ among)
  simp only [read?, opened, first, next, Option.bind_eq_bind, Option.bind_some, Option.pure_def,
    String.ofList_toList]

theorem read?_call {key call : String} (called : call? key = some call) :
    read? call = some (key, "\x7d\x7d") := by
  obtain ⟨quote, kind, absent, -, rfl⟩ := exists_quote_of_call? called
  exact read?_quoted kind absent _

/-- A key has no call just if it holds quotes of both kinds. A call is its key in quotes of a kind
that the key does not hold, so what is read up to the next quote of that kind is the key, and the
closing braces are all that is left. Therefore no two keys have the same call. -/
theorem calls_read_back (key : String) :
    (call? key = none ↔ '"' ∈ key.toList ∧ '\x27' ∈ key.toList) ∧
      (∀ call, call? key = some call →
        ∃ quote, isQuote quote = true ∧ quote ∉ key.toList ∧ (quote = '"' ↔ '"' ∉ key.toList) ∧
          call = "\x7b\x7bt " ++ quote.toString ++ key ++ quote.toString ++ "\x7d\x7d" ∧
          read? call = some (key, "\x7d\x7d")) ∧
      ∀ other call, call? key = some call → call? other = some call → key = other := by
  refine ⟨call?_eq_none_iff, fun call called => ?_, fun other call called also => ?_⟩
  · obtain ⟨quote, kind, absent, preferred, written⟩ := exists_quote_of_call? called
    exact ⟨quote, kind, absent, preferred, written, read?_call called⟩
  · have same := (read?_call called).symm.trans (read?_call also)
    exact congrArg Prod.fst (Option.some.inj same)

/-- The key looks like the end of a call in double quotes, so it is written in single ones. -/
theorem closing_key_read_back :
    call? "menu.\"\x7d\x7d" = some "\x7b\x7bt \x27menu.\"\x7d\x7d\x27\x7d\x7d" ∧
      read? "\x7b\x7bt \x27menu.\"\x7d\x7d\x27\x7d\x7d" = some ("menu.\"\x7d\x7d", "\x7d\x7d") ∧
      ∀ other, call? other = some "\x7b\x7bt \x27menu.\"\x7d\x7d\x27\x7d\x7d" →
        "menu.\"\x7d\x7d" = other := by
  have called : call? "menu.\"\x7d\x7d" = some "\x7b\x7bt \x27menu.\"\x7d\x7d\x27\x7d\x7d" := by
    decide
  obtain ⟨-, readable, unique⟩ := calls_read_back "menu.\"\x7d\x7d"
  obtain ⟨quote, -, -, -, -, read⟩ := readable _ called
  exact ⟨called, read, fun other also => unique other _ called also⟩

end TemplateLint.Helper
