import TemplateLint.Path

/-! # Commands

What the words of a command line ask for.
-/

namespace TemplateLint

/-- What a command works on. -/
structure Selection where
  /-- Documents and directories; none stand for the whole project. -/
  paths : List Path := []
  /-- The locale of the catalog, in place of the configured one. -/
  locale : Option String := none
  /-- The root of the project, in place of the directory of its settings. -/
  projectRoot : Option Path := none
  verbose : Bool := false
deriving DecidableEq, Repr

/-- A command. -/
inductive Command where
  /-- Report bare text. -/
  | check (selection : Selection)
  /-- Replace bare text; unless the changes are applied they are only shown. -/
  | fix (selection : Selection) (apply : Bool)
  /-- Write a settings file. -/
  | init
deriving DecidableEq, Repr

/-- The help that is shown without a command. -/
def Command.help : String :=
  "A template lint rule that finds untranslated text and moves it into locale catalogs\n" ++
  "\n" ++
  "Usage: bare-strings [COMMAND]\n" ++
  "\n" ++
  "Commands:\n" ++
  "  check  Report untranslated text in template documents\n" ++
  "  fix    Replace untranslated text with translation helper calls\n" ++
  "  init   Initialize a new .barestringsrc.json configuration file\n" ++
  "  help   Print this message or the help of the given subcommand(s)\n" ++
  "\n" ++
  "Options:\n" ++
  "  -h, --help     Print help\n" ++
  "  -V, --version  Print version\n"

end TemplateLint
