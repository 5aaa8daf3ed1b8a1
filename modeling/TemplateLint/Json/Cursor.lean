import TemplateLint.Json.Fault

/-! # Reading position in a JSON text

A cursor is what is left of a text together with the place reached in it. Columns count bytes, and
a character that is only looked at counts with its first byte. A reader moves a cursor forward or
stops; it stops with a place, or with an error that gets its place from the brackets around it.
-/

namespace TemplateLint.Json

/-- The start of a text. -/
def Position.start : Position := ⟨1, 0⟩

/-- The place behind a character. -/
@[inline] def Position.past (position : Position) (c : Char) : Position :=
  if c = '\n' then ⟨position.line + 1, 0⟩ else ⟨position.line, position.column + c.utf8Size⟩

/-- The place behind the first byte of a character. -/
def Position.into (position : Position) (c : Char) : Position :=
  if c = '\n' then ⟨position.line + 1, 0⟩ else ⟨position.line, position.column + 1⟩

/-- What is left of a text, and the place reached. -/
structure Cursor where
  rest : List Char
  position : Position
deriving DecidableEq, Repr

namespace Cursor

/-- A cursor before a whole text. -/
def ofString (text : String) : Cursor := ⟨text.toList, .start⟩

/-- The place of the next byte, which is the present place at the end of the text. -/
@[inline] def ahead (cursor : Cursor) : Position :=
  match cursor.rest with
  | [] => cursor.position
  | c :: _ => cursor.position.into c

/-- The cursor behind the next character. -/
@[inline] def next (cursor : Cursor) : Cursor :=
  match cursor.rest with
  | [] => cursor
  | c :: rest => ⟨rest, cursor.position.past c⟩

/-- Move over characters as long as they satisfy a condition. -/
def skipChars (keep : Char → Bool) : List Char → Position → Cursor
  | [], position => ⟨[], position⟩
  | c :: rest, position =>
    if keep c then skipChars keep rest (position.past c) else ⟨c :: rest, position⟩

/-- Whether a character is blank in JSON. -/
def isBlank (c : Char) : Bool :=
  c == ' ' || c == '\n' || c == '\t' || c == '\r'

/-- Move over blanks. -/
def skipBlanks (cursor : Cursor) : Cursor :=
  skipChars isBlank cursor.rest cursor.position

/-- Move over a number of bytes; nothing if the text is shorter. A character may be cut, so only
the place is answered. -/
def positionAfter? : Nat → List Char → Position → Option Position
  | 0, _, position => some position
  | _ + 1, [], _ => none
  | count + 1, c :: rest, position =>
    if c.utf8Size ≤ count + 1 then positionAfter? (count + 1 - c.utf8Size) rest (position.past c)
    else some ⟨position.line, position.column + (count + 1)⟩
termination_by structural _ rest => rest

/-- The end of the text. -/
def toEnd (cursor : Cursor) : Cursor :=
  skipChars (fun _ => true) cursor.rest cursor.position

/-- Behind the closing bracket of an array, as far as blanks allow: a comma and the blanks behind it
are passed too. -/
def closeList (cursor : Cursor) : Cursor :=
  let cursor := cursor.skipBlanks
  match cursor.rest with
  | ']' :: _ => cursor.next
  | ',' :: _ => cursor.next.skipBlanks
  | _ => cursor

/-- Behind the closing bracket of an object, as far as blanks allow. -/
def closeObject (cursor : Cursor) : Cursor :=
  let cursor := cursor.skipBlanks
  match cursor.rest with
  | '\x7d' :: _ => cursor.next
  | _ => cursor

end Cursor

/-- Why a reader stopped: at a place, or with an error still to be placed behind a cursor. -/
inductive Stop where
  | placed (problem : Problem) (position : Position)
  | unplaced (error : DecodeError) (cursor : Cursor)
deriving DecidableEq, Repr

/-- The fault that a whole text has when its reader stops. -/
def Stop.fault : Stop → Fault
  | .placed problem position => ⟨problem, some position⟩
  | .unplaced error _ => ⟨.mismatch error, none⟩

/-- A reader takes a value off the front of a text. -/
abbrev Reader (α : Type) := StateT Cursor (Except Stop) α

namespace Reader

variable {α : Type}

/-- Stop at the present place. -/
@[inline] def failHere (problem : Problem) : Reader α :=
  fun cursor => .error (.placed problem cursor.position)

/-- Stop at the next byte. -/
@[inline] def failAhead (problem : Problem) : Reader α :=
  fun cursor => .error (.placed problem cursor.ahead)

/-- Stop with an error that the brackets around the present place will place. -/
@[inline] def failUnplaced (error : DecodeError) : Reader α :=
  fun cursor => .error (.unplaced error cursor)

/-- The next character, which is not consumed. -/
@[inline] def peek : Reader (Option Char) :=
  fun cursor => .ok (cursor.rest.head?, cursor)

/-- Consume the next character. -/
@[inline] def advance : Reader Unit :=
  fun cursor => .ok ((), cursor.next)

/-- Consume blanks. -/
@[inline] def blanks : Reader Unit :=
  fun cursor => .ok ((), cursor.skipBlanks)

/-- A bound on the steps of a loop: as many as there are characters. -/
abbrev Steps := List Char

/-- Run a reader that needs a bound on its steps. A step consumes at least one character, so the
characters left bound them, with one more step for the end; they need not be counted. -/
@[inline] def bounded (read : Steps → Reader α) : Reader α :=
  fun cursor => read (' ' :: cursor.rest) cursor

/-- Place an error that has no place, behind the bracket that closes the value around it. -/
@[inline] def placing (close : Cursor → Cursor) (read : Reader α) : Reader α :=
  fun cursor =>
    match read cursor with
    | .error (.unplaced error stopped) =>
      .error (.placed (.mismatch error) (close stopped).position)
    | result => result

end Reader

end TemplateLint.Json
