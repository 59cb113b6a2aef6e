import Stanza.Cli.Console
import Stanza.Cli.Request

/-!
Running a command.

A run ends well, or with a report of what is wrong, or breaks off, or its words are wrong. The
words before the command are looked at first, then a place for the log is made and the settings
are read, and only then the words of the command are looked at. A run that breaks off or fails
keeps what it had done to the files: nothing but the place for the log, and directories above a
document that could not be written.

What a run relies on (`Cli.Tools`) is given to it: what reads sources and configuration files,
verifies documents, reads the words and shows what is put out.
-/

namespace Stanza.Cli

/-- What a run breaks off on. -/
inductive Breakdown where
  | convert (error : ConvertError)
  | settings (error : SettingsError)
  | files (error : FileError)
  /-- The directory for documents is no text. -/
  | directory (got : Kind)
  /-- Something put out holds a tag that ends a style which was not set. -/
  | markup
  deriving Inhabited

/-- How a run ends. -/
inductive Ending where
  | done
  /-- What is wrong has been reported. -/
  | reported
  | brokenOff (breakdown : Breakdown)
  /-- The words are wrong. -/
  | misused
  deriving Inhabited

/-- The exit code of an ending. -/
def Ending.code : Ending → Nat
  | .done => 0
  | .reported | .brokenOff _ => 1
  | .misused => 2

/-- The ending of a run and what it wrote. -/
structure Outcome where
  ending : Ending
  output : String := ""
  deriving Inhabited

/-- What a run relies on. -/
structure Tools extends Convert.Tools where
  codec : Settings.Codec
  parser : Parser
  console : Console

namespace Outcome

/-- A run that ends well. -/
def done (output : String) : Outcome := ⟨.done, output⟩

/-- A run that breaks off. -/
def brokenOff (breakdown : Breakdown) : Outcome := { ending := .brokenOff breakdown }

/-- A run whose words are wrong. -/
def misused : Outcome := { ending := .misused }

/-- A run that puts out some things, after what it has put out, and then ends. It breaks off at the
first of them that cannot be shown. -/
def showing (ending : Ending) (output : String) : List (Option String) → Outcome
  | [] => ⟨ending, output⟩
  | none :: _ => ⟨.brokenOff .markup, output⟩
  | some shown :: rest => showing ending (output ++ shown) rest

variable (console : Console)

/-- The end of a run whose conversion failed. -/
def ofConvertError (title : String) (error : ConvertError) : Outcome :=
  match error.message? with
  | some message =>
      showing .reported "" ((console.report title message error.path).map console.print)
  | none => brokenOff (.convert error)

/-- The end of a run whose settings could not be read. -/
def ofSettingsError (error : SettingsError) : Outcome :=
  match error.message? with
  | some message =>
      showing .reported ""
        ((console.report "Could not load configuration" message []).map console.print)
  | none => brokenOff (.settings error)

end Outcome

/-- A part of a run. It fails with the outcome of the run. -/
abbrev Step (α : Type) := ExceptT Outcome (StateM Files) α

namespace Step

/-- The result of a computation, whose failure ends the run in the given way. -/
def get {ε α : Type} (outcome : ε → Outcome) (result : Except ε α) : Step α :=
  ExceptT.mk (pure (result.mapError outcome))

/-- The result of reading the words. -/
def words {α : Type} (result : Except UsageError α) : Step α :=
  get (fun _ => Outcome.misused) result

/-- An action on the files, whose failure breaks the run off. -/
def act {α : Type} (action : FileAction α) : Step α := do
  get (fun error => Outcome.brokenOff (.files error)) (← action.run)

/-- The files as they are. -/
def files : Step Files := MonadState.get

end Step

/-- The name of the directory for settings and the log. -/
def ownDirectory (home : String) : String := home ++ "/.hclscript"

/-- The name of the configuration file that is used unless another is given. -/
def configName (home : String) : String := ownDirectory home ++ "/config.yaml"

/-- The path of the directory of the log. -/
def logDirectory (home : String) : FilePath := .ofText (ownDirectory home ++ "/logs")

/-- The path of the log. -/
def logPath (home : String) : FilePath := (logDirectory home).below (.ofText "hclscript.log")

/-- Makes a place for the log. -/
def prepareLog (home : String) : Step Unit := do
  Step.act (Files.ensureDirectory (logDirectory home))
  Step.act (Files.touch (logPath home))

variable (tools : Tools)

/-- The end of a run that only gives notice. -/
def noticed (notice : Notice) : Outcome :=
  match notice with
  | .version => .done (String.ofList (tools.console.echo "hclscript v0.1.0\n".toList))
  | .help => .done (tools.parser.help none)

/-- The end of a run that looks for a file, if there is none of that name that will do. -/
def checkFile (name : String) : Step Unit := do
  match tools.parser.vet ((← Step.files).itemOfName name) with
  | .accepted => return
  | .refused => throw .misused
  | .broken error => throw (.brokenOff (.files error))

/-- The settings for a run, for which a configuration file may be given. -/
def settingsFor (home : String) (config : Option String) : Step Settings := do
  let files ← Step.files
  let load (name : String) : Step Settings :=
    Step.get (.ofSettingsError tools.console) (Settings.load tools.codec files name)
  match config with
  | some name => load name
  | none => if files.exists? (configName home) then load (configName home) else return .standard

/-- The source among the words of a command. -/
def sourceOf (line : CommandLine) : Step String := do
  let source ← Step.words line.onlyWord
  checkFile tools source
  return source

/-- The directory for the document of a run. -/
def directoryFor (line : CommandLine) (settings : Settings) : Step String := do
  match line.out.filter (!·.isEmpty), settings.outputDirectory with
  | some directory, _ => return directory
  | none, .text directory => return directory
  | none, value => throw (.brokenOff (.directory value.kind))

/-- Compiles a source, and prints the document or writes it to a file. -/
def compileSource (settings : Settings) (line : CommandLine) : Step Outcome := do
  let source ← sourceOf tools line
  let verify := line.verify.getD settings.verify.truthy
  let text ← Step.get (.ofConvertError tools.console "Compilation failed")
    (Convert.text tools.toTools (← Step.files) source settings.options.format verify)
  if line.toStdout then return .done (String.ofList (tools.console.echo text))
  let path := Convert.outputPath (← directoryFor line settings) Convert.defaultFile
  Step.act (Convert.writeDocument path text)
  return .showing .done "" [tools.console.print (tools.console.wroteLine path)]

/-- Compiles and verifies a source, and prints a table of its blocks. -/
def checkSource (settings : Settings) (line : CommandLine) : Step Outcome := do
  let source ← sourceOf tools line
  let nodes ← Step.get (.ofConvertError tools.console "Check failed")
    ((Source.load tools.toReaders (← Step.files) source).mapError .load)
  let _ ← Step.get (.ofConvertError tools.console "Check failed")
    (Convert.ofBlocks tools.toTools nodes settings.options.format true)
  let rows ← Step.get (fun fault => .brokenOff (.convert (.compile fault))) (nodes.mapM blockRow)
  return .showing .done ""
    [tools.console.blockTable rows, tools.console.print (Console.countLine nodes.length)]

/-- Writes the default settings to the configuration file, unless something is there. -/
def initialise (home : String) (line : CommandLine) : Step Outcome := do
  if !line.words.isEmpty then throw .misused
  Step.act (Files.ensureDirectory (.ofText (ownDirectory home)))
  if !(← Step.files).exists? (configName home) then
    Step.act (Files.write (.ofText (configName home)) (Settings.defaultBytes tools.codec))
  let line := tools.console.green ("\n✓ Configuration at " ++ configName home).toList ++ ['\n']
  return .done (String.ofList (tools.console.echo line))

/-- Runs a command on its words. -/
def perform (home : String) (settings : Settings) (command : CommandName) (words : List String) :
    Step Outcome := do
  let line ← Step.words (tools.parser.line command words)
  if line.help then return .done (tools.parser.help (some command))
  match command with
  | .compile => compileSource tools settings line
  | .check => checkSource tools settings line
  | .init => initialise tools home line

/-- Runs what is asked for, with the settings of a configuration file that may be given. -/
def answer (home : String) (config : Option String) : Request → Step Outcome
  | .notice notice => return noticed tools notice
  | .command command words => do
      prepareLog home
      perform tools home (← settingsFor tools home config) command words

/-- The steps of a run on some words. -/
def steps (home : String) (words : List String) : Step Outcome := do
  let (options, rest) ← Step.words (tools.parser.globals words)
  match options.notice with
  | some notice => return noticed tools notice
  | none =>
      if let some name := options.config then checkFile tools name
      answer tools home options.config (← Step.words (tools.parser.request rest))

/-- Runs the program on some words. The answer is the outcome, and the files as they are
afterwards. -/
def run (home : String) (files : Files) (words : List String) : Outcome × Files :=
  match (steps tools home words).run files with
  | (.ok outcome, files) | (.error outcome, files) => (outcome, files)

end Stanza.Cli
