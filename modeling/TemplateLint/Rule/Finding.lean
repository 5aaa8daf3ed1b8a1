import TemplateLint.Rule.Basic
import TemplateLint.Rule.Enclosing
import TemplateLint.Template.Event

/-! # Findings

Bare text is looked for in the text of the body, in the attributes that the rule looks at, and in
string literals that stand where a mustache names its helper. Text inside an ignored element, and
text without a location, is passed over.
-/

namespace TemplateLint

/-- Bare text in a template. -/
structure Finding where
  source : String
  location : Location
  /-- The attribute whose value holds the text. -/
  attr : Option String := none
  /-- The address of the text, for text of the body. -/
  target : Option Address := none
deriving DecidableEq, Repr

/-- What every finding says. -/
def Finding.notice : String := "Non-translated string used"

/-- The wording of a finding. -/
def Finding.message (finding : Finding) : String :=
  match finding.attr with
  | none => Finding.notice
  | some name => Finding.notice ++ " in `" ++ name ++ "` attribute"

/-- Whether a finding can be resolved by a translation, which holds of all bare text. -/
def Finding.isFixable (_ : Finding) : Bool := true

namespace Rule

/-- The finding of a text at a place, if the text is bare and the place is known. -/
def textFindings (rule : Rule) (raw : String) (location : Option Location) (attr : Option String)
    (target : Option Address) : List Finding :=
  match location, Allowlist.bare? rule.allowlist raw with
  | some location, some source => [⟨source, location, attr, target⟩]
  | _, _ => []

/-- The findings of a mustache. A literal without a location has that of its mustache. -/
def mustacheFindings (rule : Rule) (mustache : Mustache) (attr : Option String) : List Finding :=
  match mustache.path with
  | .literal node => rule.textFindings node.value (node.location <|> mustache.location) attr none
  | _ => []

/-- The findings of a part of a mixed attribute value. -/
def partFindings (rule : Rule) (attr : Option String) : Part → List Finding
  | .text node => rule.textFindings node.chars node.location attr none
  | .mustache node => rule.mustacheFindings node attr

/-- The findings of an attribute value. -/
def valueFindings (rule : Rule) (attr : Option String) : AttributeValue → List Finding
  | .text node => rule.textFindings node.chars node.location attr none
  | .mustache node => rule.mustacheFindings node attr
  | .concat node => node.parts.flatMap (rule.partFindings attr)
  | .other _ => []

/-- The findings of an attribute of the innermost open element. -/
def attributeFindings (rule : Rule) (enclosing : Enclosing) (attr : Attribute) : List Finding :=
  if rule.checksAttribute enclosing.tag? attr.name then
    rule.valueFindings (some attr.name) attr.value
  else []

/-- The findings of an event inside open elements. -/
def eventFindings (rule : Rule) (enclosing : Enclosing) : Event → List Finding
  | .text node address => rule.textFindings node.chars node.location none (some address)
  | .attr attr => rule.attributeFindings enclosing attr
  | .mustache node => rule.mustacheFindings node none
  | .enter _ => []
  | .exit _ => []

/-- How far a check has come. -/
structure Progress where
  enclosing : Enclosing := []
  findings : List Finding := []

/-- Take one event. -/
def step (rule : Rule) (progress : Progress) (event : Event) : Progress :=
  match event with
  | .enter tag => { progress with enclosing := progress.enclosing.push tag }
  | .exit _ => { progress with enclosing := progress.enclosing.pop }
  | event =>
    if progress.enclosing.isIgnored then progress
    else
      { progress with
        findings := progress.findings ++ rule.eventFindings progress.enclosing event }

/-- The findings of a template, in the order of the walk. -/
def findings (rule : Rule) (template : Template) : List Finding :=
  (template.events.foldl rule.step {}).findings

end Rule

end TemplateLint
