import Stanza.Block.Compile
import Stanza.Source

/-!
Converting a source into a document.

The source is loaded, its blocks are compiled, and the document is verified if that is asked for,
which is done from outside as well (`Convert.Tools`). Only then is anything written, so a conversion
that fails leaves all files as they were.
-/

namespace Stanza

/-- Why a source is not converted. -/
inductive ConvertError where
  | load (error : LoadError)
  | compile (fault : Fault)
  /-- The document does not read back, as the account says. -/
  | unsound (account : String)
  /-- The document cannot be written. -/
  | output (error : FileError)
  deriving Inhabited

namespace Convert

/-- The directory that documents are written to unless another is given. -/
def defaultDirectory : String := "IaC"

/-- The name of the file that a document is written to unless another is given. -/
def defaultFile : String := "main.tf"

/-- What a conversion relies on. -/
structure Tools extends Source.Readers where
  /-- Reads the text of a document back, or says why not. -/
  verify : List Char → Except String Unit

variable (tools : Tools)

/-- The document of some blocks, verified if that is asked for. -/
def ofBlocks (nodes : List Value) (format : Format) (verify : Bool) :
    Except ConvertError (List Char) := do
  let text ← (Document.compile format nodes).mapError .compile
  if verify then (tools.verify text).mapError .unsound
  return text

/-- The document of a source. -/
def text (files : Files) (source : String) (format : Format) (verify : Bool) :
    Except ConvertError (List Char) := do
  ofBlocks tools (← (Source.load tools.toReaders files source).mapError .load) format verify

/-- The path of a file in a directory. -/
def outputPath (directory file : String) : FilePath :=
  (FilePath.ofText directory).below (FilePath.ofText file)

/-- Writes a document, and makes the directories above it. -/
def writeDocument (path : FilePath) (text : List Char) : FileAction Unit :=
  Files.writeBelow path (Text.encode text)

/-- Converts a source and writes its document. The answer is the path of the document, and the
files as they are afterwards. -/
def run (files : Files) (source : String) (directory file : String) (format : Format)
    (verify : Bool) : Except ConvertError FilePath × Files :=
  match text tools files source format verify with
  | .error error => (.error error, files)
  | .ok text =>
      let path := outputPath directory file
      match (writeDocument path text).run files with
      | (.ok _, files) => (.ok path, files)
      | (.error error, files) => (.error (.output error), files)

end Convert

namespace ConvertError

/-- The wording of an error, for the errors that are reported as such. -/
def message? : ConvertError → Option String
  | .load (.document (.fault (.compile error))) => some error.message
  | .load error => error.message?
  | .compile (.compile error) => some error.message
  | .unsound account => some ("Generated HCL does not parse: " ++ account)
  | _ => none

/-- The path to the value at fault, if the error has one. -/
def path : ConvertError → Path
  | .load (.document (.fault (.compile error))) => error.path
  | .compile (.compile error) => error.path
  | _ => []

end ConvertError

end Stanza
