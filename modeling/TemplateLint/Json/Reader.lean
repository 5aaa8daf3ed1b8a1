import TemplateLint.Json.Scalar

/-! # Reading JSON values

Arrays and objects are read by two loops that take the reader of one item, so that typed documents
and untyped values share them. Values nest at most 127 deep. A value that nobody needs is skipped:
its syntax is checked, but neither its depth nor its numbers nor its surrogates.
-/

namespace TemplateLint.Json

namespace Reader

variable {α σ : Type}

/-- How many containers may be open at once. -/
def depthLimit : Nat := 127

/-! ## Containers -/

/-- The items of an array, behind the first one or its opening bracket, with the closing bracket. -/
def itemLoop (item : Reader α) : Steps → Bool → Reader (List α)
  | [], _ => failHere .endInList
  | _ :: steps, first => do
    blanks
    match ← peek with
    | none => failHere .endInList
    | some ']' =>
      advance
      return []
    | some c =>
      if first then
        let head ← item
        return head :: (← itemLoop item steps false)
      else if c = ',' then
        advance
        blanks
        match ← peek with
        | none => failHere .endInValue
        | some ']' => failAhead .trailingComma
        | some _ =>
          let head ← item
          return head :: (← itemLoop item steps false)
      else failAhead .noListSeparator

/-- An array, before its opening bracket. -/
def list (item : Reader α) : Reader (List α) :=
  placing Cursor.closeList do
    advance
    bounded fun steps => itemLoop item steps true

/-- A key, before its opening quote. -/
def key : Reader String := do
  advance
  stringBody

/-- Consume the colon behind a key. -/
def colon : Reader Unit := do
  blanks
  match ← peek with
  | none => failHere .endInObject
  | some ':' => advance
  | some _ => failAhead .noColon

/-- One member of an object. What its key calls for is decided before the colon: the reader of its
value, which updates the members gathered so far, or an error. -/
def entry (member : String → σ → Except DecodeError (Reader σ)) (gathered : σ) : Reader σ := do
  let name ← key
  match member name gathered with
  | .error error => failUnplaced error
  | .ok value =>
    colon
    value

/-- The members of an object up to its closing bracket. -/
def memberLoop (member : String → σ → Except DecodeError (Reader σ)) : Steps → Bool → σ → Reader σ
  | [], _, _ => failHere .endInObject
  | _ :: steps, first, gathered => do
    blanks
    match ← peek with
    | none => failHere .endInObject
    | some '\x7d' => return gathered
    | some c =>
      if first then
        if c = '"' then memberLoop member steps false (← entry member gathered)
        else failAhead .keyNotString
      else if c = ',' then
        advance
        blanks
        match ← peek with
        | none => failHere .endInValue
        | some '\x7d' => failAhead .trailingComma
        | some '"' => memberLoop member steps false (← entry member gathered)
        | some _ => failAhead .keyNotString
      else failAhead .noObjectSeparator

/-- An object, before its opening bracket. `finish` turns the members gathered into a result. -/
def fields (member : String → σ → Except DecodeError (Reader σ)) (start : σ)
    (finish : σ → Except DecodeError α) : Reader α :=
  placing Cursor.closeObject do
    advance
    let gathered ← bounded fun steps => memberLoop member steps true start
    match finish gathered with
    | .error error => failUnplaced error
    | .ok result =>
      advance
      return result

/-! ## Values -/

/-- A value whose items and members are read by `inner`; a container is refused without one. -/
def valueWith (inner : Option (Reader Json)) : Reader Json := do
  blanks
  match ← peek with
  | none => failHere .endInValue
  | some 'n' =>
    advance
    word ['u', 'l', 'l']
    return .null
  | some 't' =>
    advance
    word ['r', 'u', 'e']
    return .bool true
  | some 'f' =>
    advance
    word ['a', 'l', 's', 'e']
    return .bool false
  | some '"' =>
    advance
    return .string (← stringBody)
  | some '[' =>
    match inner with
    | none => failAhead .tooDeep
    | some item => return .array (← list item)
  | some '\x7b' =>
    match inner with
    | none => failAhead .tooDeep
    | some value =>
      fields (fun name gathered => .ok do return Members.assignReversed name (← value) gathered) []
        fun gathered => .ok (.object gathered.reverse)
  | some c => if c = '-' ∨ isDigit c then return .number (← number) else failAhead .noValue

/-- A value that opens at most `depth` containers at once. -/
def value : Nat → Reader Json
  | 0 => valueWith none
  | depth + 1 => valueWith (some (value depth))

/-! ## Skipping -/

/-- A container that is being skipped. -/
inductive Frame where
  | list
  | object
deriving DecidableEq, Repr

/-- Whether a character closes a container. -/
def Frame.isClose : Frame → Char → Bool
  | .list, c => c == ']'
  | .object, c => c == '\x7d'

/-- Pass a scalar, or the opening bracket of a container, which is answered. -/
def skipStart : Reader (Option Frame) := do
  blanks
  match ← peek with
  | none => failHere .endInValue
  | some 'n' =>
    advance
    word ['u', 'l', 'l']
    return none
  | some 't' =>
    advance
    word ['r', 'u', 'e']
    return none
  | some 'f' =>
    advance
    word ['a', 'l', 's', 'e']
    return none
  | some '"' =>
    advance
    skipStringBody
    return none
  | some '[' =>
    advance
    return some .list
  | some '\x7b' =>
    advance
    return some .object
  | some c =>
    if c = '-' ∨ isDigit c then
      skipNumber
      return none
    else failAhead .noValue

/-- Pass closing brackets and a comma, up to the next item of an open container. The containers that
stay open are answered; none is left when the value is complete. -/
def skipEnds : List Frame → Bool → Reader (List Frame)
  | [], _ => return []
  | frame :: outer, afterItem => do
    blanks
    match ← peek with
    | none => failHere (if frame = .list then .endInList else .endInObject)
    | some c =>
      if c = ',' ∧ afterItem then
        advance
        return frame :: outer
      else if frame.isClose c then
        advance
        skipEnds outer true
      else if afterItem then
        failAhead (if frame = .list then .noListSeparator else .noObjectSeparator)
      else return frame :: outer

/-- Pass the key of a member and its colon. -/
def skipKey : Reader Unit := do
  blanks
  match ← peek with
  | none => failHere .endInObject
  | some '"' =>
    advance
    skipStringBody
    colon
  | some _ => failAhead .keyNotString

/-- Pass the rest of a value inside open containers. -/
def skipLoop : Steps → List Frame → Reader Unit
  | [], _ => failHere .endInValue
  | _ :: steps, frames => do
    let opened ← skipStart
    let frames ← match opened with
      | some frame => skipEnds (frame :: frames) false
      | none => skipEnds frames true
    match frames with
    | [] => return ()
    | .list :: _ => skipLoop steps frames
    | .object :: _ =>
      skipKey
      skipLoop steps frames

/-- Pass a value. -/
def skip : Reader Unit := bounded fun steps => skipLoop steps []

end Reader

/-- Read a whole text: nothing but blanks may follow. -/
def readText {α : Type} (reader : Reader α) (text : String) : Except Fault α :=
  match reader (.ofString text) with
  | .error stop => .error stop.fault
  | .ok (result, cursor) =>
    let cursor := cursor.skipBlanks
    if cursor.rest.isEmpty then .ok result
    else .error ⟨.trailingText, some cursor.ahead⟩

/-- Read a whole text as a value. -/
def parse (text : String) : Except Fault Json :=
  readText (Reader.value Reader.depthLimit) text

end TemplateLint.Json
