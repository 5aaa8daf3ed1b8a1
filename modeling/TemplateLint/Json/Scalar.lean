import TemplateLint.Json.Cursor

/-! # Reading JSON scalars

Strings, numbers and the three words. A number is first cut into its parts, so that skipping a
number checks the same grammar as reading one; only the value of a number that is read must be in
range. An unpaired surrogate is refused where a string is read and accepted where it is skipped.
-/

namespace TemplateLint.Json

open TemplateLint.Number

namespace Reader

/-! ## Words -/

/-- Consume the characters of a word. -/
def word : List Char → Reader Unit
  | [] => pure ()
  | expected :: rest => do
    match ← peek with
    | none => failHere .endInValue
    | some c =>
      if c = expected then
        advance
        word rest
      else failAhead .noWord

/-! ## Strings -/

/-- The value of a hexadecimal digit. -/
def hexValue? (c : Char) : Option Nat :=
  if '0' ≤ c ∧ c ≤ '9' then some (c.toNat - '0'.toNat)
  else if 'a' ≤ c ∧ c ≤ 'f' then some (c.toNat - 'a'.toNat + 10)
  else if 'A' ≤ c ∧ c ≤ 'F' then some (c.toNat - 'A'.toNat + 10)
  else none

/-- The value of hexadecimal digits, most significant first. -/
def hexNumber? (digits : List Char) : Option Nat :=
  digits.foldlM (fun value c => (hexValue? c).map (16 * value + ·)) 0

/-- The four hexadecimal digits of an escape. Four bytes are taken before they are looked at. -/
def hexQuad : Reader Nat :=
  fun cursor =>
    match hexNumber? (cursor.rest.take 4), cursor.rest.drop 3 with
    | some value, _ :: rest =>
      .ok (value, ⟨rest, ⟨cursor.position.line, cursor.position.column + 4⟩⟩)
    | _, _ =>
      match Cursor.positionAfter? 4 cursor.rest cursor.position with
      | some position => .error (.placed .badEscape position)
      | none => .error (.placed .endInString cursor.toEnd.position)

/-- Whether a code unit is the first of a surrogate pair. -/
def isLeading (unit : Nat) : Bool := 0xD800 ≤ unit && unit ≤ 0xDBFF

/-- Whether a code unit is the second of a surrogate pair. -/
def isTrailing (unit : Nat) : Bool := 0xDC00 ≤ unit && unit ≤ 0xDFFF

/-- The character of a surrogate pair. -/
def pairedChar (leading trailing : Nat) : Char :=
  Char.ofNat (0x10000 + (leading - 0xD800) * 0x400 + (trailing - 0xDC00))

/-- Consume a character of an escaped surrogate pair. -/
def pairChar (expected : Char) : Reader Unit := do
  match ← peek with
  | none => failHere .endInString
  | some c => if c = expected then advance else failAhead .unfinishedEscape

/-- The character of an escape by code units. -/
def unicodeEscape : Reader Char := do
  let unit ← hexQuad
  if isTrailing unit then failHere .loneSurrogate
  else if isLeading unit then
    pairChar '\\'
    pairChar 'u'
    let second ← hexQuad
    if isTrailing second then return pairedChar unit second
    else failHere .loneSurrogate
  else return Char.ofNat unit

/-- The character that a one-letter escape stands for. -/
def simpleEscape? : Char → Option Char
  | '"' => some '"'
  | '\\' => some '\\'
  | '/' => some '/'
  | 'b' => some '\x08'
  | 'f' => some '\x0c'
  | 'n' => some '\n'
  | 'r' => some '\r'
  | 't' => some '\t'
  | _ => none

/-- The character of an escape, behind its backslash. -/
def escape : Reader Char := do
  match ← peek with
  | none => failHere .endInString
  | some 'u' =>
    advance
    unicodeEscape
  | some letter =>
    match simpleEscape? letter with
    | some c =>
      advance
      return c
    | none => failAhead .badEscape

/-- The characters of a string up to its closing quote. -/
def stringChars : Steps → Reader (List Char)
  | [] => failHere .endInString
  | _ :: steps => do
    match ← peek with
    | none => failHere .endInString
    | some '"' =>
      advance
      return []
    | some '\\' =>
      advance
      let c ← escape
      return c :: (← stringChars steps)
    | some c =>
      if c.toNat < 0x20 then failAhead .controlCharacter
      else
        advance
        return c :: (← stringChars steps)

/-- A string, behind its opening quote. -/
def stringBody : Reader String := do
  return String.ofList (← bounded stringChars)

/-- Pass an escape, behind its backslash. -/
def skipEscape : Reader Unit := do
  match ← peek with
  | none => failHere .endInString
  | some 'u' =>
    advance
    let _ ← hexQuad
    return ()
  | some letter => if (simpleEscape? letter).isSome then advance else failAhead .badEscape

/-- Pass the characters of a string and its closing quote. -/
def skipStringChars : Steps → Reader Unit
  | [] => failHere .endInString
  | _ :: steps => do
    match ← peek with
    | none => failHere .endInString
    | some '"' => advance
    | some '\\' =>
      advance
      skipEscape
      skipStringChars steps
    | some c =>
      if c.toNat < 0x20 then failHere .controlCharacter
      else
        advance
        skipStringChars steps

/-- Pass a string, behind its opening quote. -/
def skipStringBody : Reader Unit := bounded skipStringChars

/-! ## Numbers -/

/-- Whether a character is a decimal digit. -/
def isDigit (c : Char) : Bool := '0' ≤ c && c ≤ '9'

/-- The value of a decimal digit. -/
def digitValue (c : Char) : Nat := c.toNat - '0'.toNat

/-- Consume decimal digits. -/
def digits : Reader (List Nat) :=
  fun cursor =>
    .ok ((cursor.rest.takeWhile isDigit).map digitValue,
      Cursor.skipChars isDigit cursor.rest cursor.position)

/-- The exponent of a number: its sign, its digits and the place where they start. -/
structure Exponent where
  negative : Bool
  digits : List Nat
  start : Position

/-- The parts of a number. -/
structure NumberParts where
  negative : Bool
  whole : List Nat
  fraction : List Nat
  exponent : Option Exponent
  isReal : Bool

/-- The digits before the point: a zero stands alone. -/
def wholeDigits (atEnd : Problem) : Reader (List Nat) := do
  match ← peek with
  | none => failHere atEnd
  | some '0' =>
    advance
    match ← peek with
    | some c => if isDigit c then failAhead .badNumber else return [0]
    | none => return [0]
  | some c => if isDigit c then digits else failAhead .badNumber

/-- The digits behind the point, of which there is at least one. -/
def fractionDigits (atEnd : Problem) : Reader (List Nat) := do
  match ← peek with
  | none => failHere atEnd
  | some c => if isDigit c then digits else failAhead .badNumber

/-- The sign and the digits of an exponent. -/
def exponentPart (atEnd : Problem) : Reader Exponent := do
  let negative ← (do
    match ← peek with
    | some '+' =>
      advance
      return false
    | some '-' =>
      advance
      return true
    | _ => return false)
  let start := (← get).position
  return ⟨negative, ← fractionDigits atEnd, start⟩

/-- The parts of a number. `atEnd` is the problem of a text that ends within the number. -/
def numberParts (atEnd : Problem) : Reader NumberParts := do
  let negative ← (do
    match ← peek with
    | some '-' =>
      advance
      return true
    | _ => return false)
  let whole ← wholeDigits atEnd
  let fraction ← (do
    match ← peek with
    | some '.' =>
      advance
      return some (← fractionDigits atEnd)
    | _ => return none)
  let exponent ← (do
    match ← peek with
    | some 'e' | some 'E' =>
      advance
      return some (← exponentPart atEnd)
    | _ => return none)
  return ⟨negative, whole, fraction.getD [], exponent, fraction.isSome || exponent.isSome⟩

/-- The greatest unsigned integer. -/
def greatestInteger : Nat := 18446744073709551615

/-- The greatest exponent whose digits are all counted. -/
def greatestExponent : Nat := 2147483647

/-- Append digits to a number as long as the result is in bounds; how many were appended. -/
def appendDigits (bound : Nat) : List Nat → Nat → Nat × Nat
  | [], value => (value, 0)
  | digit :: rest, value =>
    if 10 * value + digit ≤ bound then
      let (result, count) := appendDigits bound rest (10 * value + digit)
      (result, count + 1)
    else (value, 0)

/-- Scale a significand by a power of ten and give it a sign. -/
def realNumber (negative : Bool) (significand : Nat) (exponent : Int) : Reader Json.Number :=
  match Magnitude.ofDecimal? significand exponent with
  | some magnitude => return .real ⟨negative, magnitude⟩
  | none => failHere .numberRange

/-- The number of a significand with the exponent that stands in the text. An exponent too long to
count gives zero or is out of range. -/
def scaledNumber (negative : Bool) (significand : Nat) (scale : Int) (exponent : Exponent) :
    Reader Json.Number :=
  let (value, count) := appendDigits greatestExponent exponent.digits 0
  if count < exponent.digits.length then
    if significand = 0 ∨ exponent.negative then return .real ⟨negative, .zero⟩
    else
      fun _ =>
        .error (.placed .numberRange
          ⟨exponent.start.line, exponent.start.column + (count + 1)⟩)
  else realNumber negative significand (if exponent.negative then scale - value else scale + value)

/-- The greatest magnitude of a negative integer. -/
def greatestNegative : Nat := 9223372036854775808

/-- The value of a number without point and exponent. -/
def wholeNumber (negative : Bool) (significand : Nat) : Reader Json.Number :=
  if negative then
    if 0 < significand ∧ significand ≤ greatestNegative then return .integer (-(significand : Int))
    else realNumber true significand 0
  else return .integer significand

/-- The value of a number. Digits that no longer fit the significand are dropped. -/
def numberValue (parts : NumberParts) : Reader Json.Number :=
  let (whole, taken) := appendDigits greatestInteger parts.whole 0
  let dropped := parts.whole.length - taken
  let (significand, places) := appendDigits greatestInteger parts.fraction whole
  let scale : Int := (dropped : Int) - (places : Int)
  match parts.exponent with
  | some exponent => scaledNumber parts.negative significand scale exponent
  | none =>
    if parts.isReal ∨ 0 < dropped then realNumber parts.negative significand scale
    else wholeNumber parts.negative significand

/-- A number. -/
def number : Reader Json.Number := do
  numberValue (← numberParts .endInValue)

/-- Pass a number. -/
def skipNumber : Reader Unit := do
  let _ ← numberParts .badNumber
  return ()

end Reader

end TemplateLint.Json
