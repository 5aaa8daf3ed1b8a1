/-! # Styled text

A text for a terminal is a list of spans. Without color only their texts are written; with color a
span that has a style stands between the escape sequence that sets it and the one that resets it. A
reset inside the text itself does not end the style, which is set again behind it.
-/

namespace TemplateLint.Text

/-- A color of a terminal. -/
inductive Color where
  | red
  | green
  | yellow
  | blue
  | cyan
deriving DecidableEq, Repr

/-- The code of a color. -/
def Color.code : Color → String
  | .red => "31"
  | .green => "32"
  | .yellow => "33"
  | .blue => "34"
  | .cyan => "36"

/-- The weight of a text. -/
inductive Weight where
  | bold
  | dimmed
deriving DecidableEq, Repr

/-- The code of a weight. -/
def Weight.code : Weight → String
  | .bold => "1"
  | .dimmed => "2"

/-- How a text looks. -/
structure Style where
  weight : Option Weight := none
  color : Option Color := none
deriving DecidableEq, Repr

/-- The codes of a style, the weight before the color. -/
def Style.codes (style : Style) : List String :=
  (style.weight.map Weight.code).toList ++ (style.color.map Color.code).toList

/-- A text in one style. -/
structure Span where
  text : String
  style : Style := {}
deriving DecidableEq, Repr

/-- A text in several styles. -/
abbrev Styled := List Span

/-- A text without a style. -/
def plain (text : String) : Span := { text }

/-- A colored text. -/
def colored (color : Color) (text : String) : Span := ⟨text, { color := some color }⟩

/-- A bold text. -/
def bold (text : String) : Span := ⟨text, { weight := some .bold }⟩

/-- A bold colored text. -/
def boldColored (color : Color) (text : String) : Span := ⟨text, ⟨some .bold, some color⟩⟩

/-- A dimmed colored text. -/
def dimmedColored (color : Color) (text : String) : Span := ⟨text, ⟨some .dimmed, some color⟩⟩

/-- The escape sequence that sets a style. -/
def Style.opening (style : Style) : List Char :=
  ("\x1b[" ++ String.intercalate ";" style.codes ++ "m").toList

/-- The escape sequence that resets all styles. -/
def reset : List Char := "\x1b[0m".toList

/-- A text with an escape sequence behind every reset in it. -/
def reopen (opening : List Char) : List Char → List Char
  | '\x1b' :: '[' :: '0' :: 'm' :: rest => reset ++ opening ++ reopen opening rest
  | c :: rest => c :: reopen opening rest
  | [] => []

/-- The written form of a span. -/
def Span.render (color : Bool) (span : Span) : String :=
  if color && !span.style.codes.isEmpty then
    let opening := span.style.opening
    String.ofList (opening ++ reopen opening span.text.toList ++ reset)
  else span.text

/-- The written form of a styled text. -/
def Styled.render (color : Bool) (styled : Styled) : String :=
  String.join (styled.map (Span.render color))

end TemplateLint.Text
