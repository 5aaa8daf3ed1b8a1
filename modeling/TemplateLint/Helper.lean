/-! # Calls of the translation helper

Bare text is replaced by a call of the helper `t` with a key in quotes. The quotes are double unless
the key holds a double quote, and single then; a key that holds both kinds cannot be written.
-/

namespace TemplateLint.Helper

/-- The name of the helper. -/
def name : String := "t"

/-- The quote that a key can be written in. -/
def quote? (key : String) : Option Char :=
  if !key.toList.contains '"' then some '"'
  else if !key.toList.contains '\x27' then some '\x27'
  else none

/-- The call for a key, if the key can be quoted. -/
def call? (key : String) : Option String :=
  (quote? key).map fun quote =>
    "\x7b\x7b" ++ name ++ " " ++ quote.toString ++ key ++ quote.toString ++ "\x7d\x7d"

end TemplateLint.Helper
