import Stanza.Proofs.Cli.Opening

/-!
What the commands do.

Each command is an equation for the outcome and the files that it leaves. Compiling changes files
only where it writes the document (`Cli.compileSource_run`), checking never does
(`Cli.checkSource_run`), and `init` only makes the directory for settings and puts a configuration
file there (`Cli.initialise_run`).
-/

namespace Stanza.Cli

open Files

variable {tools : Tools} {home : String} {files : Files} {settings : Settings} {line : CommandLine}

/-! ### The words of a command -/

/-- The source of a line, if it names one and there is a file of that name. -/
def sourceVerdict (tools : Tools) (files : Files) (line : CommandLine) : Except Outcome String :=
  match line.onlyWord with
  | .error _ => .error .misused
  | .ok source => (fileVerdict tools files source).map fun _ => source

theorem sourceOf_run (tools : Tools) (line : CommandLine) (files : Files) :
    (sourceOf tools line).run files = (sourceVerdict tools files line, files) := by
  unfold sourceVerdict
  rw [sourceOf, Step.words, run_bind, Step.run_get]
  cases line.onlyWord with
  | error error => rfl
  | ok source =>
    dsimp only [Except.mapError]
    rw [run_bind, checkFile_run]
    cases fileVerdict tools files source with
    | error outcome => rfl
    | ok _ => rfl

/-- The part of a run that a command is, once its words are looked at. -/
def commandBody (tools : Tools) (home : String) (settings : Settings) :
    CommandName → CommandLine → Step Outcome
  | .compile, line => compileSource tools settings line
  | .check, line => checkSource tools settings line
  | .init, line => initialise tools home line

/-- The end of a run that gives help on a command. -/
def helped (tools : Tools) (command : CommandName) : Outcome :=
  .done (tools.parser.help (some command))

/-- A run on the words of a command, which are looked at first, and help is given whatever else they
say. -/
theorem perform_run (tools : Tools) (home : String) (settings : Settings) (command : CommandName)
    (own : List String) (files : Files) :
    (perform tools home settings command own).run files =
      match tools.parser.line command own with
      | .error _ => (.error .misused, files)
      | .ok line =>
          if line.help then (.ok (helped tools command), files)
          else (commandBody tools home settings command line).run files := by
  rw [perform, Step.words, run_bind, Step.run_get]
  cases tools.parser.line command own with
  | error error => rfl
  | ok line =>
    dsimp only [Except.mapError]
    split
    · rfl
    · cases command with
      | compile => rfl
      | check => rfl
      | init => rfl

/-! ### Runs on a command -/

/-- Some words ask for a command with a configuration file that may be given, with the options and
words of a line. -/
def Asks (tools : Tools) (words : List String) (config : Option String) (command : CommandName)
    (line : CommandLine) : Prop :=
  ∃ own, plan tools words = .begun config command own ∧ tools.parser.line command own = .ok line ∧
    line.help = false

/-- A run that begins well is what its command does. -/
theorem run_of_asks {logged : Files} {words : List String} {config : Option String}
    {command : CommandName} (hasks : Asks tools words config command line)
    (hopening : (opening tools home config).run files = (.ok settings, logged)) :
    run tools home files words =
      conclude ((commandBody tools home settings command line).run logged) := by
  obtain ⟨own, hplan, hline, hhelp⟩ := hasks
  rw [run_of_begun hplan, hopening]
  dsimp only
  rw [perform_run, hline]
  dsimp only
  rw [hhelp]
  rfl

/-! ### Codes -/

/-- A run that puts something out ends as it is meant to, or breaks off. -/
theorem code_showing (ending : Ending) (output : String) (shown : List (Option String)) :
    (Outcome.showing ending output shown).ending.code = ending.code ∨
      (Outcome.showing ending output shown).ending.code = 1 := by
  induction shown generalizing output with
  | nil => exact .inl rfl
  | cons first rest ih =>
    cases first with
    | none => exact .inr rfl
    | some text => exact ih _

theorem code_ofConvertError (console : Console) (title : String) (error : ConvertError) :
    (Outcome.ofConvertError console title error).ending.code = 1 := by
  unfold Outcome.ofConvertError
  split
  · exact (code_showing _ _ _).elim id id
  · rfl

theorem code_ofSettingsError (console : Console) (error : SettingsError) :
    (Outcome.ofSettingsError console error).ending.code = 1 := by
  unfold Outcome.ofSettingsError
  split
  · exact (code_showing _ _ _).elim id id
  · rfl

/-! ### Reading the source -/

section Source

variable {others : Files} {source : String}

/-- A source is read from its file and from no other. -/
theorem load_eq_of_read (readers : Source.Readers)
    (h : others.read (.ofText source) = files.read (.ofText source)) :
    Source.load readers others source = Source.load readers files source := by
  rw [Source.load, Source.load, Source.documents, Source.documents, h]

theorem text_eq_of_read (tools : Convert.Tools) (format : Format) (verify : Bool)
    (h : others.read (.ofText source) = files.read (.ofText source)) :
    Convert.text tools others source format verify =
      Convert.text tools files source format verify := by
  rw [Convert.text, Convert.text, load_eq_of_read _ h]

end Source

/-! ### Compiling -/

/-- Whether a run on a line verifies its document. -/
def verifies (settings : Settings) (line : CommandLine) : Bool :=
  line.verify.getD settings.verify.truthy

/-- The text that a line compiles to. -/
def compiled (tools : Tools) (files : Files) (settings : Settings) (line : CommandLine) :
    Except Outcome (List Char) :=
  match sourceVerdict tools files line with
  | .error outcome => .error outcome
  | .ok source =>
      (Convert.text tools.toTools files source settings.options.format
        (verifies settings line)).mapError (.ofConvertError tools.console "Compilation failed")

/-- The directory that a line writes to. -/
def directoryVerdict (line : CommandLine) (settings : Settings) : Except Outcome String :=
  match line.out.filter (!·.isEmpty), settings.outputDirectory with
  | some directory, _ => .ok directory
  | none, .text directory => .ok directory
  | none, value => .error (.brokenOff (.directory value.kind))

theorem directoryFor_run (line : CommandLine) (settings : Settings) (files : Files) :
    (directoryFor line settings).run files = (directoryVerdict line settings, files) := by
  unfold directoryFor directoryVerdict
  cases line.out.filter (!·.isEmpty) with
  | some directory => rfl
  | none =>
    cases settings.outputDirectory with
    | text directory => rfl
    | _ => rfl

/-- The end of a run that has written a document. -/
def wrote (tools : Tools) (path : FilePath) : Outcome :=
  .showing .done "" [tools.console.print (tools.console.wroteLine path)]

/-- Compiling prints the document or writes it, and changes nothing where there is none. -/
theorem compileSource_run (tools : Tools) (settings : Settings) (line : CommandLine)
    (files : Files) :
    (compileSource tools settings line).run files =
      match compiled tools files settings line with
      | .error outcome => (.error outcome, files)
      | .ok text =>
          if line.toStdout then (.ok (.done (String.ofList (tools.console.echo text))), files)
          else match directoryVerdict line settings with
            | .error outcome => (.error outcome, files)
            | .ok directory =>
                let path := Convert.outputPath directory Convert.defaultFile
                match (Convert.writeDocument path text).run files with
                | (.error error, after) => (.error (.brokenOff (.files error)), after)
                | (.ok _, after) => (.ok (wrote tools path), after) := by
  rw [compileSource, run_bind, sourceOf_run]
  unfold compiled
  cases sourceVerdict tools files line with
  | error outcome => rfl
  | ok source =>
    dsimp only
    rw [run_bind, Step.run_files]
    dsimp only
    rw [run_bind, Step.run_get, ← verifies]
    cases Convert.text tools.toTools files source settings.options.format
      (verifies settings line) with
    | error error => rfl
    | ok text =>
      dsimp only [Except.mapError]
      split
      · rfl
      · rw [run_bind, directoryFor_run]
        cases directoryVerdict line settings with
        | error outcome => rfl
        | ok directory =>
          dsimp only
          rw [run_bind, Step.run_act]
          rcases (Convert.writeDocument (Convert.outputPath directory Convert.defaultFile)
            text).run files with ⟨error | _, after⟩
          · rfl
          · rfl

/-! ### Checking -/

/-- The table of some blocks that are sound, and how many they are. -/
def tabled (console : Console) (nodes : List Value) : Except Outcome Outcome :=
  match nodes.mapM blockRow with
  | .error fault => .error (.brokenOff (.convert (.compile fault)))
  | .ok rows =>
      .ok (.showing .done ""
        [console.blockTable rows, console.print (Console.countLine nodes.length)])

/-- What checking a line comes to. -/
def checked (tools : Tools) (files : Files) (settings : Settings) (line : CommandLine) :
    Except Outcome Outcome :=
  match sourceVerdict tools files line with
  | .error outcome => .error outcome
  | .ok source =>
      match Source.load tools.toReaders files source with
      | .error error => .error (.ofConvertError tools.console "Check failed" (.load error))
      | .ok nodes =>
          match Convert.ofBlocks tools.toTools nodes settings.options.format true with
          | .error error => .error (.ofConvertError tools.console "Check failed" error)
          | .ok _ => tabled tools.console nodes

/-- Checking changes nothing. -/
theorem checkSource_run (tools : Tools) (settings : Settings) (line : CommandLine)
    (files : Files) :
    (checkSource tools settings line).run files = (checked tools files settings line, files) := by
  unfold checkSource checked
  rw [run_bind, sourceOf_run]
  cases sourceVerdict tools files line with
  | error outcome => rfl
  | ok source =>
    dsimp only
    rw [run_bind, Step.run_files]
    dsimp only
    rw [run_bind, Step.run_get]
    cases Source.load tools.toReaders files source with
    | error error => rfl
    | ok nodes =>
      dsimp only [Except.mapError]
      rw [run_bind, Step.run_get]
      cases Convert.ofBlocks tools.toTools nodes settings.options.format true with
      | error error => rfl
      | ok _ =>
        dsimp only [Except.mapError]
        rw [run_bind, Step.run_get]
        unfold tabled
        cases nodes.mapM blockRow with
        | error fault => rfl
        | ok rows => rfl

/-! ### Making the configuration file -/

/-- The end of a run that has made sure of the configuration file. -/
def initialised (tools : Tools) (home : String) : Outcome :=
  .done (String.ofList (tools.console.echo
    (tools.console.green ("\n✓ Configuration at " ++ configName home).toList ++ ['\n'])))

theorem initialise_run (tools : Tools) (home : String) (line : CommandLine) (files : Files) :
    (initialise tools home line).run files =
      if !line.words.isEmpty then (.error .misused, files)
      else match (ensureDirectory (.ofText (ownDirectory home))).run files with
        | (.error error, after) => (.error (.brokenOff (.files error)), after)
        | (.ok _, made) =>
            if made.exists? (configName home) then (.ok (initialised tools home), made)
            else match (write (.ofText (configName home))
                (Settings.defaultBytes tools.codec)).run made with
              | (.error error, after) => (.error (.brokenOff (.files error)), after)
              | (.ok _, after) => (.ok (initialised tools home), after) := by
  unfold initialise
  split
  · rfl
  · rw [run_bind, Step.run_act]
    rcases (ensureDirectory (.ofText (ownDirectory home))).run files with ⟨error | _, made⟩
    · rfl
    · dsimp only [Except.mapError]
      rw [run_bind, Step.run_files]
      by_cases hexists : made.exists? (configName home)
      · simp only [hexists]
        rfl
      · simp only [hexists]
        rw [if_neg Bool.false_ne_true, if_pos Bool.not_false, run_bind, Step.run_act]
        rcases (write (.ofText (configName home))
          (Settings.defaultBytes tools.codec)).run made with ⟨error | _, after⟩
        · rfl
        · rfl

end Stanza.Cli
