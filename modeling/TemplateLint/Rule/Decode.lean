import TemplateLint.Json.Printer
import TemplateLint.Rule.Basic

/-! # The rule from its configured value

A boolean switches the rule on or off, an array is an allowlist, and an object may set an allowlist
and the attributes to look at; what it leaves out keeps its default. Anything else is refused.
-/

namespace TemplateLint

/-- Why a configured value is refused. -/
inductive RuleError.Reason where
  | notStrings (key : String)
  | notObject (key : String)
  | unknownKey (key : String)
  | wrongShape
deriving DecidableEq, Repr

/-- A configured value that is refused. -/
structure RuleError where
  reason : RuleError.Reason
  specified : Json

/-- The wording of a reason. -/
def RuleError.Reason.message : RuleError.Reason → String
  | .notStrings key => "`" ++ key ++ "` must be an array of strings"
  | .notObject key => "`" ++ key ++ "` must be an object"
  | .unknownKey key => "Unknown key `" ++ key ++ "`"
  | .wrongShape => "Expected a boolean, an array or an object"

/-- The values that the rule accepts, for messages. -/
def RuleError.acceptedShapes : String :=
  "The bare strings rule accepts one of the following values.\n" ++
  "  * boolean - `true` to enable / `false` to disable\n" ++
  "  * array -- an array of strings to allowlist\n" ++
  "  * object -- An object with the following keys:\n" ++
  "    * `allowlist` -- An array of allowlisted strings\n" ++
  "    * `globalAttributes` -- An array of attributes to check on every element\n" ++
  "    * `elementAttributes` -- An object whose keys are tag names and value is an array of " ++
  "attributes to check for that tag name"

/-- The wording of an error. -/
def RuleError.message (error : RuleError) : String :=
  RuleError.acceptedShapes ++ "\n" ++ error.reason.message ++ "\nYou specified `" ++
    error.specified.compact ++ "`"

namespace Rule

/-- The texts of a list of strings. -/
def stringItems (key : String) (items : List Json) : Except RuleError.Reason (List String) :=
  items.mapM fun item =>
    match item with
    | .string text => .ok text
    | _ => .error (.notStrings key)

/-- The texts of a value that must be a list of strings. -/
def stringList (key : String) : Json → Except RuleError.Reason (List String)
  | .array items => stringItems key items
  | _ => .error (.notStrings key)

/-- What an object has set so far. -/
structure Draft where
  allowlist : List String := []
  /-- The former name of the allowlist, which counts when the allowlist is empty. -/
  whitelist : List String := []
  globalAttributes : List String := Rule.default.globalAttributes
  elementAttributes : List (String × List String) := Rule.default.elementAttributes

/-- The attributes of every tag of an object. -/
def tagLists (key : String) : Json → Except RuleError.Reason (List (String × List String))
  | .object tags => do
    let lists ← tags.mapM fun (tag, value) => do return (tag, sortedSet (← stringList key value))
    return sortedByKey lists
  | _ => .error (.notObject key)

/-- Take one member of an object. -/
def Draft.add (draft : Draft) (key : String) (value : Json) : Except RuleError.Reason Draft :=
  match key with
  | "allowlist" => return { draft with allowlist := ← stringList key value }
  | "whitelist" => return { draft with whitelist := ← stringList key value }
  | "globalAttributes" =>
    return { draft with globalAttributes := sortedSet (← stringList key value) }
  | "elementAttributes" => return { draft with elementAttributes := ← tagLists key value }
  | _ => .error (.unknownKey key)

/-- The rule that an object describes. -/
def Draft.finish (draft : Draft) : Rule :=
  let entries := if draft.allowlist.isEmpty then draft.whitelist else draft.allowlist
  { allowlist :=
      if entries.isEmpty then Rule.default.allowlist else Allowlist.longestFirst entries
    globalAttributes := draft.globalAttributes
    elementAttributes := draft.elementAttributes }

/-- The rule that a value configures: none if it switches the rule off, or the reason why it is
refused. -/
def decode : Json → Except RuleError.Reason (Option Rule)
  | .bool true => .ok (some Rule.default)
  | .bool false => .ok none
  | .null => .ok none
  | .array items => do
    let entries ← stringItems "allowlist" items
    return some { Rule.default with allowlist := Allowlist.longestFirst entries }
  | .object members => do
    let draft ← members.foldlM (fun (draft : Draft) member => draft.add member.1 member.2) {}
    return some draft.finish
  | _ => .error .wrongShape

/-- The rule that a value configures, with the value itself in an error. -/
def ofJson (value : Json) : Except RuleError (Option Rule) :=
  (decode value).mapError fun reason => ⟨reason, value⟩

end Rule

end TemplateLint
