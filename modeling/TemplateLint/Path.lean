/-! # Paths

A path keeps its spelling. Comparison, prefixes and order go by components: repeated and trailing
slashes and `.` inside a path are no components, while `..` is one and is never resolved here.
-/

namespace TemplateLint

/-- A path as it is spelled. -/
structure Path where
  spelling : String
deriving DecidableEq, Repr, Inhabited

namespace Path

/-- A component of a path. -/
inductive Component where
  | root
  | current
  | parent
  | name (text : String)
deriving DecidableEq, Repr

/-- Cut a text at its slashes. -/
def cut : List Char → List (List Char)
  | [] => [[]]
  | c :: rest =>
    if c = '/' then [] :: cut rest
    else
      match cut rest with
      | [] => [[c]]
      | piece :: pieces => (c :: piece) :: pieces

/-- The pieces of a path between its slashes. -/
def pieces (path : Path) : List String :=
  (cut path.spelling.toList).map String.ofList

/-- Whether a path starts at the root. -/
def isAbsolute (path : Path) : Bool :=
  path.spelling.toList.head? == some '/'

/-- A path taken apart: the component it starts with, if that is the root or the current directory,
and the pieces behind it. -/
structure Parts where
  lead : Option Component
  body : List String
deriving DecidableEq, Repr

/-- The parts of a path. -/
def parts (path : Path) : Parts :=
  match path.pieces with
  | [] => ⟨none, []⟩
  | first :: rest =>
    if path.isAbsolute then ⟨some .root, rest⟩
    else if first = "." then ⟨some .current, rest⟩
    else ⟨none, first :: rest⟩

/-- The component that a piece is, if it is one. -/
def component? (piece : String) : Option Component :=
  if piece = "" ∨ piece = "." then none
  else if piece = ".." then some .parent
  else some (.name piece)

/-- Whether a piece is no component. -/
def isFiller (piece : String) : Bool := (component? piece).isNone

/-- The components of a path. -/
def components (path : Path) : List Component :=
  path.parts.lead.toList ++ path.parts.body.filterMap component?

/-- Pieces without the fillers behind the last component. -/
def trimEnd (pieces : List String) : List String :=
  (pieces.reverse.dropWhile isFiller).reverse

/-- The spelling of parts, with a slash between them. -/
def Parts.toPath (parts : Parts) : Path :=
  let body := String.intercalate "/" parts.body
  match parts.lead with
  | some .root => ⟨"/" ++ body⟩
  | some .current => if parts.body.isEmpty then ⟨"."⟩ else ⟨"./" ++ body⟩
  | _ => ⟨body⟩

/-- A path below another; an absolute path stands for itself. -/
def join (base path : Path) : Path :=
  if path.isAbsolute then path
  else if base.spelling.isEmpty ∨ base.spelling.toList.getLast? = some '/' then
    ⟨base.spelling ++ path.spelling⟩
  else ⟨base.spelling ++ "/" ++ path.spelling⟩

/-- A name below a path. -/
def child (base : Path) (name : String) : Path := base.join ⟨name⟩

/-- The path without its last component; the root and the empty path have no parent. -/
def parent? (path : Path) : Option Path :=
  let parts := path.parts
  match trimEnd parts.body with
  | [] => if parts.lead = some .current then some ⟨""⟩ else none
  | body => some (Parts.toPath { parts with body := trimEnd body.dropLast })

/-- The last component, if it is a name. -/
def fileName? (path : Path) : Option String :=
  match path.components.getLast? with
  | some (.name text) => some text
  | _ => none

/-- A file name without its extension: up to its last dot, unless that comes first or is missing. -/
def stem (name : String) : String :=
  let ending := name.toList.reverse.takeWhile (· ≠ '.')
  let before := name.toList.take (name.length - ending.length - 1)
  if ending.length = name.length ∨ before.isEmpty then name else String.ofList before

/-- Pieces behind a number of components. -/
def dropComponents : Nat → List String → List String
  | 0, pieces => pieces
  | _ + 1, [] => []
  | count + 1, piece :: rest =>
    if isFiller piece then dropComponents (count + 1) rest else dropComponents count rest

/-- Whether the components of a path start with those of another. -/
def startsWith (path base : Path) : Bool :=
  base.components.isPrefixOf path.components

/-- What is left of a path behind another, as it is spelled there. -/
def stripPrefix? (path base : Path) : Option Path :=
  if path.startsWith base then
    match base.components.length with
    | 0 => some (Parts.toPath { path.parts with body := trimEnd path.parts.body })
    | count + 1 =>
      let parts := path.parts
      let behind := dropComponents (if parts.lead.isSome then count else count + 1) parts.body
      some (Parts.toPath ⟨none, trimEnd (behind.dropWhile isFiller)⟩)
  else none

/-- The path relative to a base if it lies below it, and the path itself otherwise. -/
def relativeTo (path base : Path) : Path := (path.stripPrefix? base).getD path

/-- The rank of a kind of component. -/
def Component.rank : Component → Nat
  | .root => 0
  | .current => 1
  | .parent => 2
  | .name _ => 3

/-- The text of a name. -/
def Component.text : Component → String
  | .name text => text
  | _ => ""

/-- The order of components: the root, the directories of dots, then names. -/
def Component.le (a b : Component) : Bool :=
  a.rank < b.rank || (a.rank == b.rank && a.text ≤ b.text)

/-- The order of lists of components, item by item. -/
def leComponents : List Component → List Component → Bool
  | [], _ => true
  | _ :: _, [] => false
  | a :: as, b :: bs => if a = b then leComponents as bs else a.le b

/-- The order of paths. -/
def le (a b : Path) : Bool := leComponents a.components b.components

/-- Whether two paths have the same components. -/
def same (a b : Path) : Bool := a.components == b.components

end Path

end TemplateLint
