import TemplateLint.Command.Basic

/-! # Reading command lines

The first word names a command; options and paths follow in any order, and behind `--` every word is
a path. The value of an option and a run of paths are taken only when the next option starts, when a
path follows a value, or at the end, so an error in a later word may win over one in them.
-/

namespace TemplateLint

/-- Why words are no command: a request for help or the version counts as well. -/
inductive UsageError where
  | unknownArgument
  | invalidSubcommand
  | argumentConflict
  | invalidValue
  | tooManyValues
  | helpRequested
  | versionRequested
deriving DecidableEq, Repr

/-- The wording of a usage error. -/
def UsageError.message : UsageError → String
  | .unknownArgument => "unexpected argument"
  | .invalidSubcommand => "unrecognized subcommand"
  | .argumentConflict => "an argument cannot be used multiple times"
  | .invalidValue => "a value is required for an argument but none was supplied"
  | .tooManyValues => "unexpected value for an argument that takes none"
  | .helpRequested => "help requested"
  | .versionRequested => "version requested"

namespace Command

/-- A word of a command line. -/
inductive Word where
  /-- The word `--`. -/
  | escape
  /-- An option by its name, with the value attached to it by an equals sign. -/
  | long (name : String) (value : Option String)
  /-- Options by their letters. -/
  | letters (letters : List Char)
  /-- Any other word; a hyphen by itself is one. -/
  | plain (text : String)
deriving DecidableEq, Repr

/-- The word that a text is. -/
def Word.ofText (text : String) : Word :=
  match text.toList with
  | ['-', '-'] => .escape
  | '-' :: '-' :: body =>
    let name := body.takeWhile (· ≠ '=')
    match body.drop name.length with
    | [] => .long (String.ofList name) none
    | _ :: value => .long (String.ofList name) (some (String.ofList value))
  | '-' :: c :: rest => .letters (c :: rest)
  | _ => .plain text

/-- An option without a value. -/
inductive Flag where
  | verbose
  | apply
  | help
deriving DecidableEq, Repr

/-- An option with a value. -/
inductive Setting where
  | locale
  | projectRoot
deriving DecidableEq, Repr

/-- The options and paths that a command takes. -/
structure Grammar where
  /-- The flags by their names. -/
  flags : List (String × Flag)
  /-- The flags by their letters. -/
  letters : List (Char × Flag)
  settings : List (String × Setting)
  takesPaths : Bool

/-- What checking takes. -/
def Grammar.check : Grammar where
  flags := [("verbose", .verbose), ("help", .help)]
  letters := [('v', .verbose), ('h', .help)]
  settings := [("locale", .locale), ("project-root", .projectRoot)]
  takesPaths := true

/-- What fixing takes. -/
def Grammar.fix : Grammar :=
  { Grammar.check with flags := ("apply", .apply) :: Grammar.check.flags }

/-- What writing a settings file takes. -/
def Grammar.init : Grammar where
  flags := [("help", .help)]
  letters := [('h', .help)]
  settings := []
  takesPaths := false

/-- Words that were read but not taken yet. -/
inductive Pending where
  | nothing
  | paths (texts : List String)
  | setting (setting : Setting) (value : Option String)
deriving DecidableEq, Repr

/-- How far reading has come. -/
structure Reading where
  selection : Selection := {}
  apply : Bool := false
  pending : Pending := .nothing
  /-- Whether all words that follow are paths. -/
  escaped : Bool := false
deriving DecidableEq, Repr

namespace Reading

/-- Take the value of a setting, which is given at most once. -/
def set (reading : Reading) (value : String) : Setting → Except UsageError Reading
  | .locale =>
    if reading.selection.locale.isSome then .error .argumentConflict
    else .ok { reading with selection := { reading.selection with locale := some value } }
  | .projectRoot =>
    if reading.selection.projectRoot.isSome then .error .argumentConflict
    else if value.isEmpty then .error .invalidValue
    else .ok { reading with selection := { reading.selection with projectRoot := some ⟨value⟩ } }

/-- Take the words that are pending. -/
def settle (reading : Reading) : Except UsageError Reading :=
  let settled := { reading with pending := .nothing }
  match reading.pending with
  | .nothing => .ok settled
  | .setting _ none => .error .invalidValue
  | .setting setting (some value) => settled.set value setting
  | .paths texts =>
    if texts.any String.isEmpty then .error .invalidValue
    else
      let paths := settled.selection.paths ++ texts.map Path.mk
      .ok { settled with selection := { settled.selection with paths := paths } }

/-- Take a flag, which is given at most once. -/
def flag (reading : Reading) (flag : Flag) : Except UsageError Reading := do
  let reading ← reading.settle
  match flag with
  | .help => .error .helpRequested
  | .verbose =>
    if reading.selection.verbose then .error .argumentConflict
    else .ok { reading with selection := { reading.selection with verbose := true } }
  | .apply =>
    if reading.apply then .error .argumentConflict else .ok { reading with apply := true }

/-- Take a flag by its letter. -/
def letter (grammar : Grammar) (reading : Reading) (letter : Char) : Except UsageError Reading :=
  match grammar.letters.lookup letter with
  | some flag => reading.flag flag
  | none => .error .unknownArgument

/-- Take an option by its name. -/
def long (grammar : Grammar) (reading : Reading) (name : String) (value : Option String) :
    Except UsageError Reading :=
  match grammar.settings.lookup name, grammar.flags.lookup name, value with
  | some setting, _, none => do return { ← reading.settle with pending := .setting setting none }
  | some setting, _, some value => do (← reading.settle).set value setting
  | none, some flag, none => reading.flag flag
  | none, some _, some _ => .error .tooManyValues
  | none, none, _ => .error .unknownArgument

/-- Take a path. -/
def path (grammar : Grammar) (reading : Reading) (text : String) : Except UsageError Reading :=
  if !grammar.takesPaths then .error .unknownArgument
  else
    match reading.pending with
    | .paths texts => .ok { reading with pending := .paths (texts ++ [text]) }
    | _ => do return { ← reading.settle with pending := .paths [text] }

/-- Take a word. -/
def word (grammar : Grammar) (reading : Reading) (text : String) : Except UsageError Reading :=
  if reading.escaped then reading.path grammar text
  else
    match Word.ofText text with
    | .escape => .ok { reading with escaped := true }
    | .long name value => reading.long grammar name value
    | .letters letters => letters.foldlM (Reading.letter grammar) reading
    | .plain text =>
      match reading.pending with
      | .setting setting none => .ok { reading with pending := .setting setting (some text) }
      | _ => reading.path grammar text

end Reading

/-- Read the words behind the name of a command. -/
def readWords (grammar : Grammar) (words : List String) : Except UsageError Reading := do
  (← words.foldlM (Reading.word grammar) {}).settle

/-- The names of the commands. -/
def names : List String := ["check", "fix", "init", "help"]

/-- What asking for the help of a command ends in. -/
def helpFor : List String → UsageError
  | [] => .helpRequested
  | [name] => if names.contains name then .helpRequested else .invalidSubcommand
  | _ => .invalidSubcommand

/-- Why a word that names no command is refused. -/
def refusal (text : String) : UsageError :=
  match Word.ofText text with
  | .long "help" none => .helpRequested
  | .long "help" (some _) => .tooManyValues
  | .long "version" none => .versionRequested
  | .long "version" (some _) => .tooManyValues
  | .letters ('h' :: _) => .helpRequested
  | .letters ('V' :: _) => .versionRequested
  | .long _ _ => .unknownArgument
  | .letters _ => .unknownArgument
  | .plain _ => .invalidSubcommand
  | .escape => .invalidSubcommand

/-- The command that words ask for; no words ask for none. -/
def read : List String → Except UsageError (Option Command)
  | [] => .ok none
  | ["--"] => .ok none
  | "--" :: word :: _ =>
    .error (if names.contains word then .unknownArgument else .invalidSubcommand)
  | "check" :: words => do return some (.check (← readWords .check words).selection)
  | "fix" :: words => do
    let reading ← readWords .fix words
    return some (.fix reading.selection reading.apply)
  | "init" :: words => do
    let _ ← readWords .init words
    return some .init
  | "help" :: words => .error (helpFor words)
  | word :: _ => .error (refusal word)

end Command

end TemplateLint
