import Stanza.Cli.Arguments
import Stanza.Cli.Run
import Stanza.Cli.Table
import Stanza.Expression
import Stanza.Json.Document
import Stanza.Yaml.Document

/-!
The tools of the program.

What a run relies on is given to it (`Cli.Tools`). These are the tools that this program runs with:
readers of JSON and YAML, a verifier that looks at the delimiters of a document only, a writer of
configuration files as far as the default settings need one, the parser of the command line, and a
console that is no terminal.

The readers go as far as values and texts do. Data that holds itself is refused, and so is an escape
in JSON that is half a character; in YAML such an escape is replaced. Characters that may not stand
in a YAML text are found before anything else in it.
-/

namespace Stanza

/-! ### Readers -/

/-- A text in JSON is refused for an integer of too many digits by the reader itself. -/
def Json.ReadError.refusal : Json.ReadError → Refusal
  | .malformed => .malformed "the text is not in the language"
  | .tooLong digits => .broken (Yaml.ReadError.tooLong digits).account

/-- A text in YAML is refused for something in it that denotes nothing by the reader itself. -/
def Yaml.ReadError.refusal : Yaml.ReadError → Refusal
  | .malformed => .malformed Yaml.ReadError.malformed.account
  | error => .broken error.account

/-- What reads a file as a text, and then the text. -/
def Yaml.ofBytes {α : Type} (read : List Char → Except Yaml.ReadError α) (bytes : List UInt8) :
    Except Refusal α :=
  match Text.decodeFile bytes with
  | some text => (read text).mapError Yaml.ReadError.refusal
  | none => .error (.undecodable (Text.decodingAccount bytes))

/-- The readers of sources. -/
def Source.Readers.standard : Source.Readers where
  json text := (Json.ofText text).mapError Json.ReadError.refusal
  yaml := Yaml.ofBytes Yaml.documents

/-! ### Verifying -/

/-- The readers of sources, with a verifier that wants the delimiters of a document to balance. -/
def Convert.Tools.standard : Convert.Tools where
  toReaders := .standard
  verify text :=
    if Expression.isBalanced text then .ok () else .error "its delimiters do not balance"

/-! ### Configuration files -/

namespace Settings.Codec

/-- The text of a value in a configuration file, when it stands in a line. -/
def dumpScalar : Value → String
  | .bool true => "true"
  | .bool false => "false"
  | .int n => toString n
  | .text s => s
  | _ => "null"

/-- The line of an entry whose value stands in the line. -/
def dumpLine (entry : Value × Value) : String :=
  dumpScalar entry.1 ++ ": " ++ dumpScalar entry.2 ++ "\n"

/-- The lines of an entry. A mapping under a key stands in the lines below it. -/
def dumpEntry : Value × Value → String
  | (key, .mapping entries) =>
      dumpScalar key ++ ":\n" ++ String.join (entries.map fun entry => "  " ++ dumpLine entry)
  | entry => dumpLine entry

/-- The reader of configuration files, and a writer that is good enough for the default settings:
texts are written as they stand. -/
def standard : Settings.Codec where
  read := Yaml.ofBytes Yaml.document
  dump entries := (String.join (entries.map dumpEntry)).toList

end Settings.Codec

/-! ### Running -/

/-- The tools of the program. -/
def Cli.Tools.standard : Cli.Tools where
  toTools := .standard
  codec := .standard
  parser := .standard
  console := .standard

end Stanza
