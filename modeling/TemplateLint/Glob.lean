/-! # Glob patterns

A pattern is matched against the whole text of a path. `?` stands for any character and `*` for any
text, slashes included; `**/` stands for any number of leading directories and `**` at the end for
anything; `[...]` and `[!...]` are classes of characters.
-/

namespace TemplateLint

/-- A member of a class of characters. -/
inductive Glob.Member where
  | single (c : Char)
  | range (first last : Char)
deriving DecidableEq, Repr

/-- A part of a pattern. -/
inductive Glob.Token where
  | char (c : Char)
  | anyChar
  | anySequence
  | anyDirectories
  | within (members : List Glob.Member)
  | except (members : List Glob.Member)
deriving DecidableEq, Repr

/-- A pattern. -/
structure Glob where
  tokens : List Glob.Token
deriving DecidableEq, Repr

/-- Why a text is no pattern, and at which of its characters. -/
inductive Glob.Error where
  | wildcards (index : Nat)
  | directories (index : Nat)
  | range (index : Nat)
deriving DecidableEq, Repr

namespace Glob

/-- The wording of an error. -/
def Error.message : Error → String
  | .wildcards index =>
    "Pattern syntax error near position " ++ toString index ++
      ": wildcards are either regular `*` or recursive `**`"
  | .directories index =>
    "Pattern syntax error near position " ++ toString index ++
      ": recursive wildcards must form a single path component"
  | .range index =>
    "Pattern syntax error near position " ++ toString index ++ ": invalid range pattern"

/-! ## Reading -/

/-- The members of a class. -/
def classMembers : List Char → List Member
  | first :: '-' :: last :: rest => .range first last :: classMembers rest
  | c :: rest => .single c :: classMembers rest
  | [] => []

/-- Cut a class at its closing bracket, which is not its first character. -/
def cutClass? : List Char → Option (List Char × List Char)
  | [] => none
  | first :: rest =>
    let inside := rest.takeWhile (· ≠ ']')
    match rest.drop inside.length with
    | [] => none
    | _ :: behind => some (first :: inside, behind)

/-- A class behind its opening bracket, and the characters behind it. -/
def class? : List Char → Option (Token × List Char)
  | '!' :: rest =>
    (cutClass? rest).map fun (inside, behind) => (.except (classMembers inside), behind)
  | rest => (cutClass? rest).map fun (inside, behind) => (.within (classMembers inside), behind)

/-- A run of stars that starts at an index behind a character: its token, how many characters it
takes, and the error if it is misplaced. -/
def stars (index : Nat) (previous : Option Char) (run : Nat) (behind : List Char) :
    Except Error (Token × Nat) :=
  if run = 1 then .ok (.anySequence, 1)
  else if run ≠ 2 then .error (.wildcards (index + 2))
  else if previous = none ∨ previous = some '/' then
    match behind with
    | [] => .ok (.anyDirectories, 2)
    | '/' :: _ => .ok (.anyDirectories, 3)
    | _ => .error (.directories (index + 2))
  else .error (.directories (index - 1))

/-- The tokens of the characters from an index on. -/
def tokensFrom : Nat → Nat → Option Char → List Char → Except Error (List Token)
  | 0, _, _, _ => .ok []
  | _ + 1, _, _, [] => .ok []
  | fuel + 1, index, previous, c :: rest => do
    if c = '?' then return .anyChar :: (← tokensFrom fuel (index + 1) (some c) rest)
    else if c = '*' then
      let run := ((c :: rest).takeWhile (· == '*')).length
      let (token, taken) ← stars index previous run ((c :: rest).drop run)
      let before := (c :: rest).take taken
      return token :: (← tokensFrom fuel (index + taken) before.getLast? ((c :: rest).drop taken))
    else if c = '[' then
      match class? rest with
      | none => .error (.range index)
      | some (token, behind) =>
        let taken := rest.length + 1 - behind.length
        return token :: (← tokensFrom fuel (index + taken) (some ']') behind)
    else return .char c :: (← tokensFrom fuel (index + 1) (some c) rest)

/-- Read a pattern. -/
def parse (pattern : String) : Except Error Glob := do
  return ⟨← tokensFrom pattern.length 0 none pattern.toList⟩

/-! ## Matching -/

/-- Whether a member holds a character; a range in reverse order holds none. -/
def Member.holds (c : Char) : Member → Bool
  | .single other => c == other
  | .range first last => first ≤ c && c ≤ last

/-- Whether a token stands for a character. -/
def Token.holds (c : Char) : Token → Bool
  | .char other => c == other
  | .anyChar => true
  | .within members => members.any (Member.holds c)
  | .except members => !members.any (Member.holds c)
  | .anySequence => false
  | .anyDirectories => false

/-- For every end of a text, the longest one first, whether tokens match it. -/
abbrev Row := List Bool

/-- The row of no tokens: they match the empty end alone. -/
def emptyRow (text : List Char) : Row := text.map (fun _ => false) ++ [true]

/-- Whether an entry of a row or one behind it holds, for every entry. -/
def orLater : Row → Row
  | [] => []
  | here :: rest =>
    let later := orLater rest
    (here || later.headD false) :: later

/-- Whether some end that follows a slash holds in a row, for every end of a text. -/
def behindSlash : List Char → Row → Row
  | c :: text, _ :: rest =>
    let later := behindSlash text rest
    ((c == '/' && rest.headD false) || later.headD false) :: later
  | _, _ => [false]

/-- The row of a token and the tokens behind it, from the row of those. Any directories are the
empty text, a text that ends in a slash, or all that is left. -/
def Token.row (text : List Char) (token : Token) (row : Row) : Row :=
  match token with
  | .anySequence => orLater row
  | .anyDirectories =>
    (List.zipWith (· || ·) row (behindSlash text row)).map (· || row.getLastD false)
  | token => List.zipWith (fun c later => token.holds c && later) text row.tail ++ [false]

/-- The row of tokens. Every token takes one pass over the text, whatever stands for how much. -/
def rowOf (text : List Char) (tokens : List Token) : Row :=
  tokens.foldr (Token.row text) (emptyRow text)

/-- Whether a pattern matches a text. -/
def accepts (glob : Glob) (text : String) : Bool :=
  (rowOf text.toList glob.tokens).headD false

end Glob

end TemplateLint
