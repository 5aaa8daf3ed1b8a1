import TemplateLint.Text.GraphemeExtend
import TemplateLint.Text.Printable

/-! # Quoted text

The form in which messages show a text: between double quotes, with every character that a
terminal would not show on its own written by its code point.
-/

namespace TemplateLint.Text

/-- A number in lower-case hexadecimal digits, without leading zeros. -/
def hexDigits (n : Nat) : List Char :=
  Nat.toDigits 16 n

/-- Letters that fill a place and show nothing: those of property `Default_Ignorable_Code_Point`. -/
def fillerRanges : List Range := [(0x115F, 0x1160), (0x3164, 0x3164), (0xFFA0, 0xFFA0)]

/-- The sound marks of halfwidth kana, which extend a grapheme and yet have a place of their own. -/
def soundMarkRanges : List Range := [(0xFF9E, 0xFF9F)]

/-- Whether a character shows on its own. -/
def isShown (c : Char) : Bool :=
  isPrintable c && !inRanges fillerRanges c &&
    (!isGraphemeExtend c || inRanges soundMarkRanges c)

/-- One character of a quoted text. -/
def quotedChar (c : Char) : List Char :=
  if c = '"' then ['\\', '"']
  else if c = '\\' then ['\\', '\\']
  else if c = '\n' then ['\\', 'n']
  else if c = '\r' then ['\\', 'r']
  else if c = '\t' then ['\\', 't']
  else if c = '\x00' then ['\\', '0']
  else if isShown c then [c]
  else ['\\', 'u', '\x7b'] ++ hexDigits c.toNat ++ ['\x7d']

/-- A text in quoted form. -/
def quoted (text : String) : String :=
  String.ofList ('"' :: text.toList.flatMap quotedChar ++ ['"'])

/-- One character of a quoted file name, in which a single quote is escaped as well. -/
def quotedNameChar (c : Char) : List Char :=
  if c = '\x27' then ['\\', '\x27'] else quotedChar c

/-- A file name in quoted form. -/
def quotedName (name : String) : String :=
  String.ofList ('"' :: name.toList.flatMap quotedNameChar ++ ['"'])

end TemplateLint.Text
