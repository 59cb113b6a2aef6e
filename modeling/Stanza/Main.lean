import Stanza.Cli.Standard

/-!
The command line program.

The files that the words name, and the configuration file, are read before the run; what the run
changed is written after it.
-/

namespace Stanza.Cli

/-- What there is of a name. -/
def itemOnDisk (name : String) : IO (Option Item) := do
  try
    return some (.file (← IO.FS.readBinFile name).toList)
  catch
    | .noFileOrDirectory .. => return none
    | _ => return some .directory

/-- The files with what there is of a name on disk, and with the directories above it. -/
def readName (files : Files) (name : String) : IO Files := do
  let path := FilePath.ofText name
  match ← itemOnDisk name with
  | none => return files
  | some .directory => return ((Files.ensureDirectory path).run files).2
  | some (.file bytes) => return ((Files.writeBelow path bytes).run files).2

/-- The names that a word can stand for: its own, and that of a value in it. -/
def namesIn (word : String) : List String := word :: (splitValue word).2.toList

/-- The name of a place. -/
def nameOfPlace : Location → String
  | "/" :: parts => "/" ++ "/".intercalate parts
  | parts => "/".intercalate parts

/-- Puts an item on disk. -/
def writeItem (place : Location) : Item → IO Unit
  | .directory => IO.FS.createDirAll (nameOfPlace place)
  | .file bytes => IO.FS.writeBinFile (nameOfPlace place) ⟨bytes.toArray⟩

/-- Puts the items on disk that are new or other than before. -/
def writeChanges (before after : Files) : IO Unit :=
  after.items.forM fun (place, item) => do
    if before.items.lookup place ≠ some item then writeItem place item

end Stanza.Cli

open Stanza Stanza.Cli in
/-- Runs the program on the words of the command line. -/
def main (words : List String) : IO UInt32 := do
  let home := (← IO.getEnv "HOME").getD "."
  let names := configName home :: (logPath home).text :: words.flatMap namesIn
  let before ← names.foldlM readName ⟨[]⟩
  let (outcome, after) := run .standard home before words
  writeChanges before after
  IO.print outcome.output
  match outcome.ending with
  | .brokenOff _ => IO.eprintln "The run was broken off."
  | .misused => IO.eprintln "The words of the command line are wrong."
  | _ => pure ()
  return outcome.ending.code.toUInt32
