import TemplateLint.Number.Shortest

/-! # JSON values

A JSON value keeps the order of its object members. Members are a plain list of pairs: giving a
key a value keeps the place of a key that is already there. Reading never yields a list with a
repeated key, but the type does not exclude one.
-/

namespace TemplateLint

open Number

/-- A JSON number: an integer of at most 64 bits, or a binary64 number. -/
inductive Json.Number where
  | integer (value : Int)
  | real (value : Binary64)
deriving DecidableEq, Repr, Inhabited

/-- A JSON value. -/
inductive Json where
  | null
  | bool (value : Bool)
  | number (value : Json.Number)
  | string (value : String)
  | array (items : List Json)
  | object (members : List (String × Json))
deriving Repr, Inhabited

/-- The members of a JSON object, in order. -/
abbrev Members := List (String × Json)

/-- The value of the first member with a key. -/
def Members.get? (members : Members) (key : String) : Option Json :=
  List.lookup key members

/-- Give a key a value: in place if the key is there, behind all members otherwise. -/
def Members.assign (key : String) (value : Json) : Members → Members
  | [] => [(key, value)]
  | (other, old) :: rest =>
    if other = key then (key, value) :: rest else (other, old) :: Members.assign key value rest

/-- Give a key a value in members that are kept in reverse: in place if the key is there, in front
of all members otherwise. -/
def Members.assignReversed (key : String) (value : Json) (members : Members) : Members :=
  if members.any fun member => member.1 == key then
    members.map fun member => if member.1 == key then (key, value) else member
  else (key, value) :: members

/-- The members with other keys. -/
def Members.erase (key : String) (members : Members) : Members :=
  members.filter fun member => member.1 ≠ key

namespace Json

/-- The natural number as a JSON value. -/
def ofNat (n : Nat) : Json := .number (.integer n)

/-- The member of an object with a key; nothing for any other value. -/
def get? : Json → String → Option Json
  | .object members, key => Members.get? members key
  | _, _ => none

/-- The text of a string value. -/
def string? : Json → Option String
  | .string text => some text
  | _ => none

end Json

end TemplateLint
