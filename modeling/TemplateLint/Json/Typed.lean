import TemplateLint.Json.Decode
import TemplateLint.Json.Reader

/-! # Reading typed records from text

Records are read straight from the text, so that the first fault in the order of the text counts,
be it one of syntax or of shape. A closed record may be given as an array of its fields and skips
members it does not know; an open record is an object and keeps them.
-/

namespace TemplateLint.Json.Reader

variable {α σ : Type}

/-- Stop because something else was expected. A scalar is consumed first, a container is not. -/
def wrongType (expected : Expected) : Reader α := do
  match ← peek with
  | some 'n' =>
    advance
    word ['u', 'l', 'l']
    failHere (.mismatch (.wrongType .null expected))
  | some 't' =>
    advance
    word ['r', 'u', 'e']
    failHere (.mismatch (.wrongType (.bool true) expected))
  | some 'f' =>
    advance
    word ['a', 'l', 's', 'e']
    failHere (.mismatch (.wrongType (.bool false) expected))
  | some '"' =>
    advance
    let text ← stringBody
    failHere (.mismatch (.wrongType (.string text) expected))
  | some '[' => failHere (.mismatch (.wrongType .sequence expected))
  | some '\x7b' => failHere (.mismatch (.wrongType .map expected))
  | some c =>
    if c = '-' ∨ isDigit c then
      let value ← number
      failHere (.mismatch (.wrongType (.number value) expected))
    else failAhead .noValue
  | none => failHere .endInValue

/-- A text. -/
def text : Reader String := do
  blanks
  match ← peek with
  | some '"' =>
    advance
    stringBody
  | _ => wrongType .text

/-- An index. -/
def index : Reader Nat := do
  blanks
  match ← peek with
  | some c =>
    if c = '-' ∨ isDigit c then
      match indexOf (← number) with
      | .ok value => return value
      | .error error => failHere (.mismatch error)
    else wrongType .index
  | none => wrongType .index

/-- A value that may be null. -/
def optional (read : Reader α) : Reader (Option α) := do
  blanks
  match ← peek with
  | some 'n' =>
    advance
    word ['u', 'l', 'l']
    return none
  | _ => return some (← read)

/-- A value that is read untyped first and decoded then. -/
def decoded (decode : Json → Except DecodeError α) (depth : Nat) : Reader α := do
  let raw ← value depth
  match decode raw with
  | .ok result => return result
  | .error error => failUnplaced error

/-- A list; its items may open one container less. -/
def listOf (item : Nat → Reader α) (depth : Nat) : Reader (List α) := do
  blanks
  match ← peek with
  | some '[' =>
    match depth with
    | 0 => failAhead .tooDeep
    | depth + 1 => list (item depth)
  | _ => wrongType .sequence

/-- A field of a record that is given as an array. -/
structure Place (σ : Type) where
  /-- Read the field into the fields gathered so far. -/
  read : σ → Reader σ
  /-- Whether the array may end before the field. -/
  optional : Bool

/-- Whether another item follows in an array, behind its comma. -/
def hasItem (first : Bool) : Reader Bool := do
  blanks
  match ← peek with
  | none => failHere .endInList
  | some ']' => return false
  | some c =>
    if first then return true
    else if c = ',' then
      advance
      blanks
      match ← peek with
      | none => failHere .endInValue
      | some ']' => failAhead .trailingComma
      | some _ => return true
    else failAhead .noListSeparator

/-- The fields of a record that is given as an array, from a field's index on. -/
def placeLoop (short : Nat → DecodeError) : Nat → List (Place σ) → σ → Reader σ
  | _, [], gathered => return gathered
  | at_, place :: rest, gathered => do
    if ← hasItem (at_ == 0) then
      placeLoop short (at_ + 1) rest (← place.read gathered)
    else if place.optional then placeLoop short (at_ + 1) rest gathered
    else failUnplaced (short at_)

/-- Consume the closing bracket of a record that is given as an array. -/
def endPlaces : Reader Unit := do
  blanks
  match ← peek with
  | none => failHere .endInList
  | some ']' => advance
  | some ',' =>
    advance
    blanks
    match ← peek with
    | some ']' => failAhead .trailingComma
    | _ => failAhead .trailingText
  | some _ => failAhead .trailingText

/-- How a record is read. The readers of members and places may open as many containers as they
are given. -/
structure Record (σ α : Type) where
  name : String
  start : σ
  /-- What a key calls for. -/
  member : Nat → String → σ → Except DecodeError (Reader σ)
  /-- The fields in the order of the array form, if the record has one. -/
  places : Option (Nat → List (Place σ))
  finish : σ → Except DecodeError α

/-- A record given as an array, before its opening bracket. -/
def Record.readPlaces (shape : Record σ α) (places : List (Place σ)) : Reader α :=
  placing Cursor.closeList do
    advance
    let short (length : Nat) : DecodeError :=
      .wrongLength length (.elements shape.name places.length)
    let gathered ← placeLoop short 0 places shape.start
    endPlaces
    match shape.finish gathered with
    | .ok result => return result
    | .error error => failUnplaced error

/-- A record. -/
def Record.read (shape : Record σ α) (depth : Nat) : Reader α := do
  blanks
  match ← peek with
  | some '\x7b' =>
    match depth with
    | 0 => failAhead .tooDeep
    | depth + 1 => fields (shape.member depth) shape.start shape.finish
  | some '[' =>
    match shape.places, depth with
    | none, _ => wrongType (.record shape.name)
    | some _, 0 => failAhead .tooDeep
    | some places, depth + 1 => shape.readPlaces (places depth)
  | _ => wrongType (.record shape.name)

/-- The reader of a field that must not have been read before. -/
def once (name : String) (before : Option α) (read : Reader σ) : Except DecodeError (Reader σ) :=
  match before with
  | some _ => .error (.duplicateField name)
  | none => .ok read

/-- The reader of a member that is passed over. -/
def ignored (gathered : σ) : Except DecodeError (Reader σ) :=
  .ok do
    skip
    return gathered

end TemplateLint.Json.Reader
