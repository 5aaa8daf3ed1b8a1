import TemplateLint.Allowlist

/-! # The bare text rule

What a project configures about the rule: the texts that need no translation, and the attributes
whose values are shown to people.
-/

namespace TemplateLint

/-- The distinct texts of a list, in increasing order. -/
def sortedSet (texts : List String) : List String :=
  (texts.mergeSort (· ≤ ·)).eraseReps

/-- Pairs in increasing order of their keys. -/
def sortedByKey (pairs : List (String × List String)) : List (String × List String) :=
  pairs.mergeSort fun a b => a.1 ≤ b.1

/-- The configuration of the rule. -/
structure Rule where
  /-- Texts that need no translation, longest first. -/
  allowlist : List String
  /-- Attributes to look at on every element, in increasing order. -/
  globalAttributes : List String
  /-- Attributes to look at on elements with a tag, in increasing order of the tags. -/
  elementAttributes : List (String × List String)
deriving DecidableEq, Repr

namespace Rule

/-- The rule of a project that configures nothing. -/
def default : Rule where
  allowlist := Allowlist.longestFirst Allowlist.defaultEntries
  globalAttributes :=
    sortedSet ["title", "aria-label", "aria-placeholder", "aria-roledescription", "aria-valuetext"]
  elementAttributes := sortedByKey [("input", ["placeholder"]), ("img", ["alt"])]

/-- Whether an attribute is looked at on an element. -/
def checksAttribute (rule : Rule) (tag : Option String) (name : String) : Bool :=
  rule.globalAttributes.contains name ||
    ((tag.bind fun tag => rule.elementAttributes.lookup tag).getD []).contains name

end Rule

end TemplateLint
