import Stanza.Cli.Request

/-!
A parser for the command line.

Options stand before the command they belong to, and those of a command anywhere after its name.
The value of an option follows it, or an equals sign in the same word. A double dash ends the
options; where no command comes after it, a notice can still be asked for. A word that is not
understood makes the whole line wrong.
-/

namespace Stanza.Cli

/-- A word with its value, if it has an equals sign. -/
def splitValue (word : String) : String × Option String :=
  let name := word.toList.takeWhile (· ≠ '=')
  match word.toList.drop name.length with
  | [] => (word, none)
  | _ :: value => (String.ofList name, some (String.ofList value))

/-- Whether a word is an option: a single dash is none. -/
def isOption (word : String) : Bool :=
  match word.toList with
  | '-' :: _ :: _ => true
  | _ => false

namespace GlobalOptions

/-- Notes a notice unless there is one already. -/
def announce (notice : Notice) (o : GlobalOptions) : GlobalOptions :=
  { o with notice := o.notice.orElse fun _ => some notice }

/-- The options at the front of some words, and the words after them. -/
def parse (o : GlobalOptions) : List String → Except UsageError (GlobalOptions × List String)
  | [] => .ok (o, [])
  | "--" :: rest => .ok (o, rest)
  | "--config" :: value :: rest => parse { o with config := some value } rest
  | word :: rest =>
      if !isOption word then .ok (o, word :: rest)
      else match splitValue word with
        | ("--config", some value) => parse { o with config := some value } rest
        | ("--debug", none) | ("--no-debug", none) => parse o rest
        | ("--version", none) => parse (o.announce .version) rest
        | ("--help", none) => parse (o.announce .help) rest
        | _ => .error .usage

end GlobalOptions

namespace CommandLine

/-- The line with one more word. -/
def addWord (word : String) (line : CommandLine) : CommandLine :=
  { line with words := line.words ++ [word] }

/-- The options and words of a command that has no options but the one for help. -/
def parsePlain (line : CommandLine) : List String → Except UsageError CommandLine
  | [] => .ok line
  | "--" :: rest => .ok { line with words := line.words ++ rest }
  | word :: rest =>
      if !isOption word then parsePlain (line.addWord word) rest
      else if word = "--help" then parsePlain { line with help := true } rest
      else .error .usage

/-- The options and words of the command that compiles. -/
def parseCompile (line : CommandLine) : List String → Except UsageError CommandLine
  | [] => .ok line
  | "--" :: rest => .ok { line with words := line.words ++ rest }
  | "--out" :: value :: rest => parseCompile { line with out := some value } rest
  | word :: rest =>
      if !isOption word then parseCompile (line.addWord word) rest
      else match splitValue word with
        | ("--out", some value) => parseCompile { line with out := some value } rest
        | ("--stdout", none) => parseCompile { line with toStdout := true } rest
        | ("--verify", none) => parseCompile { line with verify := some true } rest
        | ("--no-verify", none) => parseCompile { line with verify := some false } rest
        | ("--help", none) => parseCompile { line with help := true } rest
        | _ => .error .usage

end CommandLine

/-- The command of a name. -/
def CommandName.ofWord? (word : String) : Option CommandName :=
  if word = "compile" then some .compile
  else if word = "check" then some .check
  else if word = "init" then some .init
  else none

namespace Request

/-- What some words ask for that start with no command. They are read once more for options, as
after a double dash, but only a notice can be asked for. -/
def ofOptions (words : List String) : Except UsageError Request := do
  let (options, _) ← GlobalOptions.parse {} words
  match options.notice with
  | some asked => return .notice asked
  | none => .error .usage

/-- What some words ask for. -/
def ofWords : List String → Except UsageError Request
  | [] => .error .usage
  | word :: rest =>
      match CommandName.ofWord? word with
      | some name => .ok (.command name rest)
      | none => ofOptions (word :: rest)

end Request

/-- The verdict on the name of a file: there has to be one. A name with a null character is not
looked up. -/
def vetFile : Except FileError Item → Verdict
  | .ok (.file _) => .accepted
  | .error .nullCharacter => .broken .nullCharacter
  | _ => .refused

/-- The options and words of a command. -/
def CommandName.parse : CommandName → List String → Except UsageError CommandLine
  | .compile, words => CommandLine.parseCompile {} words
  | .check, words | .init, words => CommandLine.parsePlain {} words

/-- The parser of the program. The help that it gives is left out. -/
def Parser.standard : Parser where
  globals := GlobalOptions.parse {}
  request := Request.ofWords
  line := CommandName.parse
  vet := vetFile
  help _ := ""

end Stanza.Cli
