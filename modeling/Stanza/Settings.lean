import Stanza.Format
import Stanza.Source

/-!
Settings from a configuration file.

The file holds a YAML mapping. The format options stand under `format`; the directory for
documents and whether they are verified can be any value, and are looked at only where they are
used. An entry that is left out has its default.

What reads and writes such files comes from outside (`Settings.Codec`). The file with the default
settings is what the codec writes for them.
-/

namespace Stanza

/-- Why a configuration file yields no settings. -/
inductive SettingsError where
  | file (error : FileError)
  /-- The file is not read as a value. -/
  | refused (refusal : Refusal)
  /-- The document is no mapping. -/
  | noMapping (name : String)
  | options (name : String) (error : OptionError)
  deriving Inhabited

/-- Settings. -/
structure Settings where
  outputDirectory : Value := .text "./IaC"
  verify : Value := .bool true
  options : Options := .standard

namespace Settings

/-- What reads and writes configuration files. -/
structure Codec where
  /-- The value of the only document in a YAML file. Data that comes round to itself again is cut
  off there. -/
  read : List UInt8 → Except Refusal Value
  /-- The YAML text of a mapping, with its entries in their order. -/
  dump : Entries → List Char

variable (codec : Codec)

/-- The settings when there is no configuration file. -/
def standard : Settings := {}

/-- The entries of a configuration file. A document that counts as false has none. -/
def entries (files : Files) (name : String) : Except SettingsError Entries := do
  let bytes ← (files.readName name).mapError .file
  let value ← (codec.read bytes).mapError .refused
  if !value.truthy then return []
  else match value with
    | .mapping entries => return entries
    | _ => .error (.noMapping name)

/-- The format options of a configuration file. -/
def optionsOf (name : String) (entries : Entries) : Except SettingsError Options :=
  (Options.ofValue ((entries.find? "format").getD .null)).mapError (.options name)

/-- The format options in the configuration file of a name. -/
def loadOptions (files : Files) (name : String) : Except SettingsError Options := do
  optionsOf name (← entries codec files name)

/-- The settings in the configuration file of a name. -/
def load (files : Files) (name : String) : Except SettingsError Settings := do
  let entries ← entries codec files name
  let options ← optionsOf name entries
  return {
    outputDirectory := (entries.find? "output_dir").getD standard.outputDirectory
    verify := (entries.find? "verify").getD standard.verify
    options := options }

/-- The default settings as entries of a configuration file. -/
def defaultEntries : Entries :=
  [(.text "output_dir", standard.outputDirectory), (.text "verify", standard.verify),
    (.text "format", .mapping Options.standard.toEntries)]

/-- The configuration file that holds the default settings. -/
def defaultBytes : List UInt8 := Text.encode (codec.dump defaultEntries)

end Settings

namespace SettingsError

/-- The wording of an error, for the errors that are reported as faults of the settings. -/
def message? : SettingsError → Option String
  | .refused (.malformed account) => some account
  | .noMapping name => some ("Config file " ++ name ++ " must contain a mapping")
  | .options name error =>
      some ("Invalid format settings in " ++ name ++ ": " ++ error.message)
  | _ => none

end SettingsError

end Stanza
