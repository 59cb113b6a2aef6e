import Stanza.Block.Definition
import Stanza.Files.Tree
import Stanza.Text.Encoding

/-!
Source files.

A source holds the data of one JSON document or of any number of YAML documents; the ending of its
name says which. The blocks of all documents are put in a row. Nothing is read when the ending is
not known, and a file that is no text is as unreadable as one in the wrong language.

What reads the two languages comes from outside (`Source.Readers`). A reader has its own words for
what it refuses, and it may fail in a way that nobody expects of it.
-/

namespace Stanza

/-- Why a reader does not read what it is given, in its own words. -/
inductive Refusal where
  /-- It is not in the language. -/
  | malformed (account : String)
  /-- It is no text. -/
  | undecodable (account : String)
  /-- The reader itself fails on something in it. -/
  | broken (account : String)
  deriving DecidableEq, Repr, Inhabited

/-- The languages that sources are written in. -/
inductive SourceLanguage where
  | json
  | yaml
  deriving DecidableEq, Repr

/-- The language of sources with a given ending. -/
def SourceLanguage.ofSuffix? (suffix : String) : Option SourceLanguage :=
  if suffix = ".json" then some .json
  else if suffix = ".yaml" ∨ suffix = ".yml" then some .yaml
  else none

/-- Why a source yields no blocks. -/
inductive LoadError where
  /-- The ending of the name is not known. -/
  | suffix (suffix : String) (path : FilePath)
  | notFound (path : FilePath)
  /-- The file is no text in the language of its ending, as the account says. -/
  | unreadable (path : FilePath) (account : String)
  /-- The file cannot be opened, although something is there. -/
  | file (error : FileError)
  /-- The reader failed. -/
  | broken (account : String)
  | document (error : DocumentError)
  deriving Inhabited

namespace Source

/-- What reads the languages of sources. -/
structure Readers where
  /-- The value of a JSON text. -/
  json : List Char → Except Refusal Value
  /-- The values of the documents in a YAML file. It is read bit by bit, so something that is not in
  the language may be found before bytes that are no text. -/
  yaml : List UInt8 → Except Refusal (List Value)

variable (readers : Readers)

/-- The values of the documents in a file of a language. -/
def Readers.documents (language : SourceLanguage) (bytes : List UInt8) :
    Except Refusal (List Value) :=
  match language with
  | .json =>
      match Text.decodeFile bytes with
      | some text => do return [← readers.json text]
      | none => .error (.undecodable (Text.decodingAccount bytes))
  | .yaml => readers.yaml bytes

/-- What comes of a file that is refused. -/
def refused (path : FilePath) : Refusal → LoadError
  | .malformed account | .undecodable account => .unreadable path account
  | .broken account => .broken account

/-- The values of the documents in the source at a path. -/
def documents (files : Files) (path : FilePath) : Except LoadError (List Value) :=
  match SourceLanguage.ofSuffix? path.suffix with
  | none => .error (.suffix path.suffix path)
  | some language =>
      match files.read path with
      | .error .notFound => .error (.notFound path)
      | .error error => .error (.file error)
      | .ok bytes => (readers.documents language bytes).mapError (refused path)

/-- The blocks of some documents in a row. -/
def blocks (path : FilePath) : List Value → Except LoadError (List Value)
  | [] => .ok []
  | data :: rest => do
      let first ← (Document.blocks path.text data).mapError .document
      return first ++ (← blocks path rest)

/-- The blocks of the source with a given name. -/
def load (files : Files) (name : String) : Except LoadError (List Value) := do
  let path := FilePath.ofText name
  blocks path (← documents readers files path)

end Source

namespace LoadError

/-- The wording of an error, for the errors that are reported as faults of the source. -/
def message? : LoadError → Option String
  | .suffix ending path =>
      some ("Unsupported source file type '" ++ ending ++ "' for " ++ path.text ++
        "; expected one of .json, .yaml, .yml")
  | .notFound path => some ("The file at " ++ path.text ++ " was not found.")
  | .unreadable path account => some ("Could not parse " ++ path.text ++ ": " ++ account)
  | .document (.form source got) => some (DocumentError.formMessage source got)
  | _ => none

end LoadError

end Stanza
