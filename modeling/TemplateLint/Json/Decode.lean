import TemplateLint.Json.Fault

/-! # Decoding JSON values

The shapes that typed records are built from: texts, indices, lists and optional values. A value of
the wrong shape is an error; it is never replaced by a default.
-/

namespace TemplateLint.Json

variable {α : Type}

/-- The error of a value that has another type than expected. -/
def mismatch (value : Json) (expected : Expected) : Except DecodeError α :=
  .error (.wrongType value.found expected)

/-- A text. -/
def decodeText : Json → Except DecodeError String
  | .string text => .ok text
  | value => value.mismatch .text

/-- The index that an integer stands for. -/
def indexOf (number : Json.Number) : Except DecodeError Nat :=
  match number with
  | .integer value =>
    if 0 ≤ value then .ok value.toNat else .error (.wrongValue (.number number) .index)
  | .real _ => .error (.wrongType (.number number) .index)

/-- An index: a nonnegative integer. -/
def decodeIndex : Json → Except DecodeError Nat
  | .number value => indexOf value
  | value => value.mismatch .index

/-- A list of values that are decoded alike; the first error counts. -/
def decodeList (item : Json → Except DecodeError α) : Json → Except DecodeError (List α)
  | .array items => items.mapM item
  | value => value.mismatch .sequence

/-- A value that may be null. -/
def decodeOptional (decode : Json → Except DecodeError α) : Json → Except DecodeError (Option α)
  | .null => .ok none
  | value => (decode value).map some

/-- A field that must be there. -/
def required (name : String) (field : Option α) : Except DecodeError α :=
  match field with
  | some value => .ok value
  | none => .error (.missingField name)

/-- Take members one after another into what was gathered before them; the first error counts. -/
def gather {σ : Type} (add : σ → String → Json → Except DecodeError σ) (start : σ)
    (members : Members) : Except DecodeError σ :=
  members.foldlM (fun gathered member => add gathered member.1 member.2) start

/-- An error inside a node names the kind of the node. -/
def within (kind : String) (result : Except DecodeError α) : Except DecodeError α :=
  result.mapError (.inside kind)

/-- The tag of a node: the text of its `type` member. -/
def tag? (value : Json) : Option String :=
  (value.get? "type").bind Json.string?

end TemplateLint.Json
