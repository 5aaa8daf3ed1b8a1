/-! # Enclosing elements

The open elements around a place of a template. An element whose content is never shown as prose is
ignored together with all that is inside it; every open element remembers whether it is.
-/

namespace TemplateLint

/-- Elements whose content is never prose to translate. -/
def ignoredElements : List String := ["pre", "script", "style", "template", "textarea"]

/-- An open element. -/
structure OpenElement where
  tag : String
  /-- Whether the element or one around it is ignored. -/
  ignored : Bool
deriving DecidableEq, Repr

/-- The open elements, innermost first. -/
abbrev Enclosing := List OpenElement

namespace Enclosing

/-- Whether the place inside the open elements is ignored. -/
def isIgnored (enclosing : Enclosing) : Bool :=
  (enclosing.head?.map OpenElement.ignored).getD false

/-- The tag of the innermost open element. -/
def tag? (enclosing : Enclosing) : Option String :=
  enclosing.head?.map OpenElement.tag

/-- Open an element. -/
def push (enclosing : Enclosing) (tag : String) : Enclosing :=
  ⟨tag, enclosing.isIgnored || ignoredElements.contains tag⟩ :: enclosing

/-- Close the innermost open element, if there is one. -/
def pop (enclosing : Enclosing) : Enclosing :=
  enclosing.tail

end Enclosing

end TemplateLint
