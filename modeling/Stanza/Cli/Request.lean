import Stanza.Files.Tree

/-!
What the words of the command line ask for.

The words are read from outside (`Cli.Parser`): first the options before the command, then which
command it is, and its own options and words only when it is run. The parser also says whether a
name that has to be that of a file will do, given what is there.
-/

namespace Stanza.Cli

/-- A line that is understood by nobody. -/
inductive UsageError where
  | usage
  deriving DecidableEq, Repr

/-- What is answered at once, whatever else the line says. -/
inductive Notice where
  | version
  | help
  deriving DecidableEq, Repr

/-- The options before the command. -/
structure GlobalOptions where
  config : Option String := none
  notice : Option Notice := none
  deriving DecidableEq, Repr

/-- The options and the sources of a command. -/
structure CommandLine where
  out : Option String := none
  toStdout : Bool := false
  verify : Option Bool := none
  help : Bool := false
  words : List String := []
  deriving DecidableEq, Repr

namespace CommandLine

/-- The only word of a line. -/
def onlyWord (line : CommandLine) : Except UsageError String :=
  match line.words with
  | [word] => .ok word
  | _ => .error .usage

end CommandLine

/-- The commands there are. -/
inductive CommandName where
  | compile
  | check
  | init
  deriving DecidableEq, Repr

/-- What the words after the first options ask for. -/
inductive Request where
  | notice (notice : Notice)
  /-- A command with its words, which are not looked at yet. -/
  | command (name : CommandName) (words : List String)
  deriving DecidableEq, Repr

/-- What comes of a name that has to be that of a file. -/
inductive Verdict where
  | accepted
  /-- The line is wrong. -/
  | refused
  /-- The name cannot even be looked up. -/
  | broken (error : FileError)
  deriving DecidableEq, Repr

/-- What reads the words of the command line. -/
structure Parser where
  /-- The options before the command, and the words after them. -/
  globals : List String → Except UsageError (GlobalOptions × List String)
  request : List String → Except UsageError Request
  /-- The options and words of a command. -/
  line : CommandName → List String → Except UsageError CommandLine
  /-- The verdict on the name of a file, by what is there under the name. -/
  vet : Except FileError Item → Verdict
  /-- The help on a command, or on all of them. -/
  help : Option CommandName → String

end Stanza.Cli
