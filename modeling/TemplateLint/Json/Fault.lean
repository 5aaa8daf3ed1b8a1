import TemplateLint.Json.Basic
import TemplateLint.Text.Quoted

/-! # What can be wrong with a JSON text

A `DecodeError` says how a value misses the shape that is expected of it; a `Problem` is either
that or a fault of the text itself; a `Fault` is a problem with the place where it was found.
-/

namespace TemplateLint.Json

open Text

/-- What stands where something else was expected. -/
inductive Found where
  | null
  | bool (value : Bool)
  | number (value : Json.Number)
  | string (value : String)
  | sequence
  | map
deriving DecidableEq, Repr

/-- The summary of a value for a message. -/
def found : Json → Found
  | .null => .null
  | .bool value => .bool value
  | .number value => .number value
  | .string value => .string value
  | .array _ => .sequence
  | .object _ => .map

/-- The wording of what was found. -/
def Found.message : Found → String
  | .null => "null"
  | .bool value => "boolean `" ++ toString value ++ "`"
  | .number (.integer value) => "integer `" ++ toString value ++ "`"
  | .number (.real value) => "floating point `" ++ value.render .json ++ "`"
  | .string value => "string " ++ quoted value
  | .sequence => "sequence"
  | .map => "map"

/-- What a position of a document calls for. -/
inductive Expected where
  | text
  | index
  | sequence
  | record (name : String)
  | variant
  | tagged (name : String)
  | elements (name : String) (count : Nat)
  | fewerInArray
  | inSequence (count : Nat)
deriving DecidableEq, Repr

/-- The wording of what is expected. -/
def Expected.message : Expected → String
  | .text => "a string"
  | .index => "usize"
  | .sequence => "a sequence"
  | .record name => "struct " ++ name
  | .variant => "variant identifier"
  | .tagged name => "internally tagged enum " ++ name
  | .elements name count => "struct " ++ name ++ " with " ++ toString count ++ " elements"
  | .fewerInArray => "fewer elements in array"
  | .inSequence count => toString count ++ " elements in sequence"

/-- How a value misses its shape. -/
inductive DecodeError where
  | missingField (name : String)
  | duplicateField (name : String)
  | wrongType (found : Found) (expected : Expected)
  | wrongValue (found : Found) (expected : Expected)
  | wrongLength (length : Nat) (expected : Expected)
  | unknownVariant (name : String) (known : List String)
  | inside (kind : String) (cause : DecodeError)
deriving DecidableEq, Repr

/-- The wording of a decode error. -/
def DecodeError.message : DecodeError → String
  | .missingField name => "missing field `" ++ name ++ "`"
  | .duplicateField name => "duplicate field `" ++ name ++ "`"
  | .wrongType found expected =>
    "invalid type: " ++ found.message ++ ", expected " ++ expected.message
  | .wrongValue found expected =>
    "invalid value: " ++ found.message ++ ", expected " ++ expected.message
  | .wrongLength length expected =>
    "invalid length " ++ toString length ++ ", expected " ++ expected.message
  | .unknownVariant name known =>
    "unknown variant `" ++ name ++ "`, expected " ++
      String.intercalate " or " (known.map fun k => "`" ++ k ++ "`")
  | .inside kind cause => "invalid " ++ kind ++ ": " ++ cause.message

/-- A fault of a JSON text. -/
inductive Problem where
  | endInValue
  | endInList
  | endInObject
  | endInString
  | noValue
  | noWord
  | noColon
  | noListSeparator
  | noObjectSeparator
  | keyNotString
  | trailingComma
  | trailingText
  | badNumber
  | numberRange
  | badEscape
  | loneSurrogate
  | unfinishedEscape
  | controlCharacter
  | tooDeep
  | mismatch (error : DecodeError)
deriving DecidableEq, Repr

/-- The wording of a problem. -/
def Problem.message : Problem → String
  | .endInValue => "EOF while parsing a value"
  | .endInList => "EOF while parsing a list"
  | .endInObject => "EOF while parsing an object"
  | .endInString => "EOF while parsing a string"
  | .noValue => "expected value"
  | .noWord => "expected ident"
  | .noColon => "expected `:`"
  | .noListSeparator => "expected `,` or `]`"
  | .noObjectSeparator => "expected `,` or `\x7d`"
  | .keyNotString => "key must be a string"
  | .trailingComma => "trailing comma"
  | .trailingText => "trailing characters"
  | .badNumber => "invalid number"
  | .numberRange => "number out of range"
  | .badEscape => "invalid escape"
  | .loneSurrogate => "lone leading surrogate in hex escape"
  | .unfinishedEscape => "unexpected end of hex escape"
  | .controlCharacter => "control character (\\u0000-\\u001F) found while parsing a string"
  | .tooDeep => "recursion limit exceeded"
  | .mismatch error => error.message

/-- A place in a text: its line, from one, and the bytes of that line before the place. -/
structure Position where
  line : Nat
  column : Nat
deriving DecidableEq, Repr

/-- A problem and where it was found, if it has a place. -/
structure Fault where
  problem : Problem
  position : Option Position
deriving DecidableEq, Repr

/-- The wording of a fault. -/
def Fault.message (fault : Fault) : String :=
  match fault.position with
  | none => fault.problem.message
  | some at_ =>
    fault.problem.message ++ " at line " ++ toString at_.line ++ " column " ++ toString at_.column

end TemplateLint.Json
