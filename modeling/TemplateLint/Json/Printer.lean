import TemplateLint.Json.Basic

/-! # JSON text

One printer serves both written forms. A form only fixes which blanks stand before items and
behind a colon: none in the compact form, a new indented line and a space in the pretty form.
-/

namespace TemplateLint.Json

/-- The blanks of a written form. -/
structure Form where
  /-- What stands before an item, or a closing bracket, at a nesting depth. -/
  newline : Nat → String
  /-- What stands between a key and its value. -/
  colon : String

/-- No blanks at all. -/
def Form.compact : Form := ⟨fun _ => "", ":"⟩

/-- Every item on a line of its own, indented by two spaces per level. -/
def Form.pretty : Form :=
  ⟨fun depth => "\n" ++ String.ofList (List.replicate (2 * depth) ' '), ": "⟩

/-- A hexadecimal digit in lower case. -/
def hexDigit (n : Nat) : Char := Nat.digitChar n

/-- One character of a JSON string: quotes, backslashes and control characters are escaped. -/
def escapeChar (c : Char) : List Char :=
  if c = '"' then ['\\', '"']
  else if c = '\\' then ['\\', '\\']
  else if c = '\n' then ['\\', 'n']
  else if c = '\r' then ['\\', 'r']
  else if c = '\t' then ['\\', 't']
  else if c = '\x08' then ['\\', 'b']
  else if c = '\x0c' then ['\\', 'f']
  else if c.toNat < 0x20 then
    ['\\', 'u', '0', '0', hexDigit (c.toNat / 16), hexDigit (c.toNat % 16)]
  else [c]

/-- A text as a JSON string. -/
def quote (text : String) : String :=
  String.ofList ('"' :: text.toList.flatMap escapeChar ++ ['"'])

/-- The text of a number. -/
def Number.render : Json.Number → String
  | .integer value => toString value
  | .real value => value.render .json

mutual
/-- A value in a written form, at a nesting depth. -/
def render (form : Form) (depth : Nat) : Json → String
  | .null => "null"
  | .bool true => "true"
  | .bool false => "false"
  | .number value => value.render
  | .string value => quote value
  | .array [] => "[]"
  | .array (item :: rest) =>
    "[" ++ form.newline (depth + 1) ++ render form (depth + 1) item ++
      String.join (renderItems form (depth + 1) rest) ++ form.newline depth ++ "]"
  | .object [] => "\x7b\x7d"
  | .object ((key, value) :: rest) =>
    "\x7b" ++ form.newline (depth + 1) ++ quote key ++ form.colon ++
      render form (depth + 1) value ++ String.join (renderMembers form (depth + 1) rest) ++
      form.newline depth ++ "\x7d"
/-- The items of an array behind the first one. -/
def renderItems (form : Form) (depth : Nat) : List Json → List String
  | [] => []
  | item :: rest =>
    ("," ++ form.newline depth ++ render form depth item) :: renderItems form depth rest
/-- The members of an object behind the first one. -/
def renderMembers (form : Form) (depth : Nat) : List (String × Json) → List String
  | [] => []
  | (key, value) :: rest =>
    ("," ++ form.newline depth ++ quote key ++ form.colon ++ render form depth value) ::
      renderMembers form depth rest
end

/-- A value without blanks. -/
def compact (value : Json) : String := value.render .compact 0

/-- A value on indented lines. -/
def pretty (value : Json) : String := value.render .pretty 0

end TemplateLint.Json
