import TemplateLint.Text.Blank

/-! # Allowlists

An allowlist names texts that need no translation. A text is bare when something other than blanks
is left of it after every entry, in the order of the list, has been taken out until it occurs no
more. Longer entries come first, so that an entry is not broken up by a shorter one inside it.
-/

namespace TemplateLint.Allowlist

open Text

/-- The entries that apply unless a project names its own: punctuation, and the character
references that stand for it. -/
def defaultEntries : List String :=
  ["(", ")", ",", ".", "&", "+", "-", "=", "*", "/", "#", "%", "!", "?", ":", "[", "]", "\x7b",
   "\x7d", "<", ">", "•", "—", " ", "|", "&lpar;", "&rpar;", "&comma;", "&period;", "&amp;",
   "&AMP;", "&plus;", "&minus;", "&equals;", "&ast;", "&midast;", "&sol;", "&num;", "&percnt;",
   "&excl;", "&quest;", "&colon;", "&lsqb;", "&lbrack;", "&rsqb;", "&rbrack;", "&lcub;",
   "&lbrace;", "&rcub;", "&rbrace;", "&lt;", "&LT;", "&gt;", "&GT;", "&bull;", "&bullet;",
   "&mdash;", "&emsp;", "&ensp;", "&nbsp;", "&vert;", "&verbar;", "&VerticalLine;"]

/-- The nonempty entries, longest first; entries of one length keep their order. -/
def longestFirst (entries : List String) : List String :=
  (entries.filter fun entry => !entry.isEmpty).mergeSort fun a b => b.length ≤ a.length

/-- Whether an entry occurs somewhere in a text. -/
def occursIn (entry : List Char) : List Char → Bool
  | [] => entry.isEmpty
  | c :: rest => entry.isPrefixOf (c :: rest) || occursIn entry rest

/-- Leave out the first `drop` characters and, behind them, every occurrence of an entry from left
to right. -/
def removeFrom (entry : List Char) : Nat → List Char → List Char
  | _, [] => []
  | drop + 1, _ :: rest => removeFrom entry drop rest
  | 0, c :: rest =>
    if entry.isPrefixOf (c :: rest) then removeFrom entry (entry.length - 1) rest
    else c :: removeFrom entry 0 rest

/-- Leave out the occurrences of a nonempty entry, from left to right and without overlap. -/
def remove (entry text : List Char) : List Char :=
  removeFrom entry 0 text

/-- Leave out an entry again and again, because what is left may join into new occurrences. -/
def stripSteps (entry : List Char) : Nat → List Char → List Char
  | 0, text => text
  | steps + 1, text =>
    if occursIn entry text then stripSteps entry steps (remove entry text) else text

/-- Leave out an entry until it occurs no more; an empty entry leaves the text as it is. -/
def strip (entry text : List Char) : List Char :=
  if entry.isEmpty then text else stripSteps entry text.length text

/-- What is left of a text when all entries have been taken out in order. -/
def residue (entries : List String) (text : List Char) : List Char :=
  entries.foldl (fun left entry => strip entry.toList left) text

/-- The text itself, if it is bare. -/
def bare? (entries : List String) (raw : String) : Option String :=
  if (residue entries raw.toList).all isBlank then none else some raw

end TemplateLint.Allowlist
