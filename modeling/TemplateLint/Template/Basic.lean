import TemplateLint.Json.Basic

/-! # Parsed templates

A template is a list of nodes. Text, elements, mustaches and blocks are known; every other node,
attribute value and expression is kept as the JSON value it was given as, and so are the members of
a known node that the library has no use for.
-/

namespace TemplateLint

/-- A place in the template's own source. -/
structure Location where
  line : Nat
  column : Nat
deriving DecidableEq, Repr, Inhabited

/-- Literal text. -/
structure TextNode where
  chars : String
  location : Option Location := none
  extra : Members := []
deriving Repr, Inhabited

/-- A quoted string in the place of a helper's name. -/
structure StringLiteral where
  value : String
  location : Option Location := none
  extra : Members := []
deriving Repr, Inhabited

/-- The name of a helper or a value. -/
structure PathExpression where
  name : String
  location : Option Location := none
  extra : Members := []
deriving Repr, Inhabited

/-- What a mustache or a block evaluates. -/
inductive Expression where
  | literal (literal : StringLiteral)
  | path (path : PathExpression)
  | other (value : Json)
deriving Repr, Inhabited

/-- An expression between double braces; its arguments are carried along unread. -/
structure Mustache where
  path : Expression
  location : Option Location := none
  extra : Members := []
deriving Repr, Inhabited

/-- A part of an attribute value that mixes text and mustaches. -/
inductive Part where
  | text (text : TextNode)
  | mustache (mustache : Mustache)
deriving Repr, Inhabited

/-- An attribute value that mixes text and mustaches. -/
structure Concat where
  parts : List Part
  extra : Members := []
deriving Repr, Inhabited

/-- The value of an attribute. -/
inductive AttributeValue where
  | text (text : TextNode)
  | mustache (mustache : Mustache)
  | concat (concat : Concat)
  | other (value : Json)
deriving Repr, Inhabited

/-- An attribute of an element. -/
structure Attribute where
  name : String
  value : AttributeValue
  location : Option Location := none
  extra : Members := []
deriving Repr, Inhabited

mutual
/-- A node of a template. -/
inductive Node where
  | text (text : TextNode)
  | element (tag : String) (attributes : List Attribute) (children : List Node)
      (location : Option Location) (extra : Members)
  | mustache (mustache : Mustache)
  | block (path : Expression) (program : Block) (inverse : Option Block)
      (location : Option Location) (extra : Members)
  | other (value : Json)
/-- A branch of a block statement. -/
inductive Block where
  | mk (body : List Node) (extra : Members)
end

instance : Inhabited Node := ⟨.other .null⟩

instance : Inhabited Block := ⟨.mk [] []⟩

/-- The nodes of a branch. -/
def Block.body : Block → List Node
  | .mk body _ => body

/-- The unread members of a branch. -/
def Block.extra : Block → Members
  | .mk _ extra => extra

/-- A parsed template. -/
structure Template where
  body : List Node
  extra : Members := []
deriving Inhabited

/-- A template and the path of the file it was parsed from, relative to the project. -/
structure Document where
  filePath : String
  template : Template
deriving Inhabited

end TemplateLint
