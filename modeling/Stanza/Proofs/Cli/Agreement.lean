import Stanza.Proofs.Cli.Commands
import Stanza.Proofs.Cli.Shown
import Stanza.Proofs.Cli.Standard
import Stanza.Proofs.Conversion

/-!
The commands and the conversion agree.

A source is converted in one way (`Convert.text`, `Convert.run`), and compiling to the console,
compiling to a file and checking all rest on it. Whatever the configuration, they succeed on a
source together with the conversion, and change no file but for the document that a conversion
writes (`Cli.commands_agree`).

Two things keep them from agreeing in full. What is put out of a document is up to the console,
which can drop its control sequences, and the table of a check is made of marked-up texts, so that
labels which are none make the check break off. Both take a character that few documents have, an
escape character and a bracket.
-/

namespace Stanza.Cli

open Files

variable {tools : Tools}

section Source

variable {files others : Files} {source : String} {bytes : List UInt8} {line : CommandLine}

theorem read_eq_of_extends (h : Extends files others)
    (hfile : files.itemOfName source = .ok (.file bytes)) :
    others.read (.ofText source) = files.read (.ofText source) := by
  rw [read_of_itemOfName hfile, read_of_itemOfName (itemOfName_of_extends h hfile)]

theorem sourceVerdict_of_file (hparser : tools.parser.IsLawful) (hwords : line.words = [source])
    (hfile : files.itemOfName source = .ok (.file bytes)) :
    sourceVerdict tools files line = .ok source := by
  rw [sourceVerdict, CommandLine.onlyWord, hwords]
  dsimp only
  rw [(fileVerdict_eq_ok_iff hparser).mpr ⟨bytes, hfile⟩]
  rfl

/-- The blocks of a source are built from data. -/
theorem areTrees_of_load {readers : Source.Readers} {nodes : List Value}
    (h : Source.load readers files source = .ok nodes) :
    Block.AreTrees Definition.IsBuilt nodes := by
  obtain ⟨values, -, hblocks⟩ := bind_eq_ok_iff.mp h
  clear h
  induction values generalizing nodes with
  | nil =>
    obtain rfl := Except.ok.inj hblocks
    trivial
  | cons data rest ih =>
    obtain ⟨first, hfirst, hblocks⟩ := bind_eq_ok_iff.mp hblocks
    obtain ⟨others, hothers, hblocks⟩ := bind_eq_ok_iff.mp hblocks
    obtain rfl := Except.ok.inj hblocks
    cases hdata : Document.blocks (FilePath.ofText source).text data with
    | error error =>
      rw [hdata] at hfirst
      cases hfirst
    | ok built =>
      rw [hdata] at hfirst
      obtain rfl := Except.ok.inj hfirst
      exact (Document.areTrees_of_blocks hdata).append (ih hothers)

end Source

/-! ### Runs on a command -/

variable {home : String} {files logged : Files} {words : List String} {config : Option String}
  {command : CommandName} {line : CommandLine} {settings : Settings}

theorem LogOnly.refl (home : String) (files : Files) : LogOnly home files files :=
  fun _ => .inl rfl

/-- The beginning of a run changes nothing but the log and the directories above it. -/
theorem logOnly_opening (tools : Tools) (home : String) (config : Option String) (files : Files) :
    LogOnly home files ((opening tools home config).run files).2 := by
  have hprepared := logOnly_prepareLog home files
  rw [opening_run]
  cases configVerdict tools files config with
  | error outcome => exact .refl home files
  | ok _ =>
    dsimp only
    rcases hprepare : (prepareLog home).run files with ⟨outcome | _, after⟩
    · rw [hprepare] at hprepared
      exact hprepared
    · rw [hprepare] at hprepared
      exact hprepared

/-! ### What agrees -/

/-- The console shows the table of the blocks of a source. -/
def IsTabled (tools : Tools) (files : Files) (source : String) : Prop :=
  ∃ nodes rows shown, Source.load tools.toReaders files source = .ok nodes ∧
    nodes.mapM blockRow = .ok rows ∧ tools.console.blockTable rows = some shown

/-- No label of a block of a source has a bracket. -/
def HasPlainLabels (tools : Tools) (files : Files) (source : String) : Prop :=
  ∀ nodes, Source.load tools.toReaders files source = .ok nodes →
    ∀ node ∈ nodes, '[' ∉ (labelCell node).toList

/-- A run puts out what a conversion results in, and if there is no escape character in it, then as
it is. -/
structure Prints (console : Console) (result : Except ConvertError (List Char)) (before : Files)
    (ran : Outcome × Files) : Prop where
  unchanged : ran.2 = before
  succeeds_iff : ran.1.ending.code = 0 ↔ ∃ text, result = .ok text
  fails : ∀ error, result = .error error → ran.1.ending.code = 1
  output : ∀ text, result = .ok text → ran.1.output = String.ofList (console.echo text)
  exact : ∀ text, result = .ok text → '\x1b' ∉ text → ran.1.output = String.ofList text

/-- A run writes what a conversion results in to a path unless something is in the way there, and
does to the files what a conversion to that path does. -/
structure Writes (result : Except ConvertError (List Char)) (path : FilePath)
    (converted : Except ConvertError FilePath × Files) (before : Files)
    (ran : Outcome × Files) : Prop where
  changes : ran.2 = converted.2
  agrees : ran.1.ending.code = 0 ↔ converted.1 = .ok path
  succeeds_iff : ran.1.ending.code = 0 ↔ (∃ text, result = .ok text) ∧ ¬before.Blocked path
  fails : ∀ error, result = .error error → ran.1.ending.code = 1 ∧ ran.2 = before
  written : ran.1.ending.code = 0 → ∃ text, result = .ok text ∧
    ran.2.item? (locate path) = some (.file (Text.encode text)) ∧
    ∀ other, other ≠ locate path → ran.2.item? other = before.item? other ∨
      before.item? other = none ∧ ran.2.item? other = some .directory ∧ IsAbove path.parent other

/-- A run checks what a conversion results in, and shows it in a table. -/
structure Checks (result : Except ConvertError (List Char)) (tabled : Prop) (before : Files)
    (ran : Outcome × Files) : Prop where
  unchanged : ran.2 = before
  succeeds_iff : ran.1.ending.code = 0 ↔ (∃ text, result = .ok text) ∧ tabled
  fails : ∀ error, result = .error error → ran.1.ending.code = 1

/-- The text that a line compiles to is the result of a conversion. -/
theorem compiled_of_file {source : String} {bytes : List UInt8} (hparser : tools.parser.IsLawful)
    (hwords : line.words = [source]) (hfile : files.itemOfName source = .ok (.file bytes)) :
    compiled tools files settings line =
      (Convert.text tools.toTools files source settings.options.format
        (verifies settings line)).mapError
          (.ofConvertError tools.console "Compilation failed") := by
  rw [compiled, sourceVerdict_of_file hparser hwords hfile]

/-- Compiling to the console prints the result. -/
theorem prints_compileSource {result : Except ConvertError (List Char)}
    (hconsole : tools.console.IsLawful) (hstdout : line.toStdout)
    (hcompiled : compiled tools logged settings line =
      result.mapError (.ofConvertError tools.console "Compilation failed")) :
    Prints tools.console result logged
      (conclude ((compileSource tools settings line).run logged)) := by
  rw [compileSource_run, hcompiled]
  cases result with
  | error error =>
    have hcode := code_ofConvertError tools.console "Compilation failed" error
    refine ⟨rfl, ?_, fun _ _ => hcode, fun _ htext => ?_, fun _ htext => ?_⟩
    · simp [conclude, Except.mapError, hcode]
    · cases htext
    · cases htext
  | ok text =>
    simp only [Except.mapError, hstdout, if_true, conclude]
    refine ⟨rfl, ⟨fun _ => ⟨text, rfl⟩, fun _ => rfl⟩, fun _ herror => ?_, ?_, ?_⟩
    · cases herror
    · rintro _ ⟨⟩
      rfl
    · rintro _ ⟨⟩ hplain
      rw [hconsole.echo text hplain]
      rfl

/-- The directory that a line writes to where the settings give one. -/
def target (line : CommandLine) (directory : String) : String :=
  (line.out.filter (!·.isEmpty)).getD directory

theorem directoryVerdict_of_text {directory : String}
    (hdirectory : settings.outputDirectory = .text directory) (line : CommandLine) :
    directoryVerdict line settings = .ok (target line directory) := by
  unfold directoryVerdict target
  rw [hdirectory]
  cases line.out.filter (!·.isEmpty) with
  | some given => rfl
  | none => rfl

/-- The end of a run that says where it has written to. -/
theorem code_wrote (hconsole : tools.console.IsLawful) (path : FilePath) :
    (wrote tools path).ending.code = 0 := by
  obtain ⟨shown, hshown⟩ := hconsole.wrote path
  rw [wrote, hshown]
  rfl

/-- Compiling to a file writes the result. -/
theorem writes_compileSource {source directory : String} {bytes : List UInt8}
    (hparser : tools.parser.IsLawful) (hconsole : tools.console.IsLawful)
    (hstdout : line.toStdout = false) (hwords : line.words = [source])
    (hfile : logged.itemOfName source = .ok (.file bytes))
    (hdirectory : settings.outputDirectory = .text directory) :
    Writes
      (Convert.text tools.toTools logged source settings.options.format (verifies settings line))
      (Convert.outputPath (target line directory) Convert.defaultFile)
      (Convert.run tools.toTools logged source (target line directory) Convert.defaultFile
        settings.options.format (verifies settings line))
      logged (conclude ((compileSource tools settings line).run logged)) := by
  rw [compileSource_run, compiled_of_file hparser hwords hfile, hstdout,
    directoryVerdict_of_text hdirectory]
  unfold Convert.run
  cases Convert.text tools.toTools logged source settings.options.format
    (verifies settings line) with
  | error error =>
    have hcode := code_ofConvertError tools.console "Compilation failed" error
    simp only [Except.mapError, conclude]
    refine ⟨rfl, ?_, ?_, fun _ _ => ⟨hcode, rfl⟩, fun hzero => ?_⟩
    · simp [hcode]
    · simp [hcode]
    · simp [hcode] at hzero
  | ok text =>
    simp only [Except.mapError, Bool.false_eq_true, if_false, Convert.writeDocument]
    have hwrote := code_wrote hconsole
      (Convert.outputPath (target line directory) Convert.defaultFile)
    rcases writeBelow_cases (Convert.outputPath (target line directory) Convert.defaultFile)
      (Text.encode text) logged with
      ⟨hfree, made, hmade, hnew, hrun⟩ | ⟨hblocked, error, after, hrun, -⟩
    · rw [hrun]
      refine ⟨rfl, iff_of_true hwrote rfl, iff_of_true hwrote ⟨⟨text, rfl⟩, hfree⟩,
        fun _ herror => ?_, fun _ => ⟨text, rfl, ?_, fun other hother => ?_⟩⟩
      · cases herror
      · exact (item?_put _ _ hnew).trans (if_pos rfl)
      · have hother' := (item?_put (.file (Text.encode text)) other hnew).trans (if_neg hother)
        simp only [conclude, hother']
        exact hmade other
    · rw [hrun]
      refine ⟨rfl, ?_, ?_, fun _ herror => ?_, fun hzero => ?_⟩
      · simp [conclude, Outcome.brokenOff, Ending.code]
      · simp [conclude, Outcome.brokenOff, Ending.code, hblocked]
      · cases herror
      · cases hzero

/-- A conversion loads the blocks of a source and makes a document of them. -/
theorem text_eq (tools : Convert.Tools) (files : Files) (source : String) (format : Format)
    (verify : Bool) :
    Convert.text tools files source format verify =
      match Source.load tools.toReaders files source with
      | .error error => .error (.load error)
      | .ok nodes => Convert.ofBlocks tools nodes format verify := by
  unfold Convert.text
  cases Source.load tools.toReaders files source with
  | error error => rfl
  | ok nodes => rfl

theorem compile_of_ofBlocks {tools : Convert.Tools} {nodes : List Value} {format : Format}
    {verify : Bool} {text : List Char} (h : Convert.ofBlocks tools nodes format verify = .ok text) :
    Document.compile format nodes = .ok text := by
  obtain ⟨found, hfound, h⟩ := bind_eq_ok_iff.mp h
  cases hcompile : Document.compile format nodes with
  | error fault =>
    rw [hcompile] at hfound
    cases hfound
  | ok made =>
    rw [hcompile] at hfound
    obtain rfl : made = found := Except.ok.inj hfound
    dsimp only at h
    split at h
    · obtain ⟨-, -, h⟩ := bind_eq_ok_iff.mp h
      exact congrArg _ (Except.ok.inj h)
    · exact congrArg _ (Except.ok.inj h)

/-- The table of blocks that compile is shown if the console shows it, and the run breaks off
otherwise. -/
theorem tabled_of_ofBlocks {source : String} {nodes : List Value} {format : Format} {verify : Bool}
    {text : List Char} (hconsole : tools.console.IsLawful)
    (hload : Source.load tools.toReaders files source = .ok nodes)
    (hblocks : Convert.ofBlocks tools.toTools nodes format verify = .ok text) :
    (IsTabled tools files source ∧ ∃ output, tabled tools.console nodes = .ok (.done output)) ∨
      ¬IsTabled tools files source ∧ tabled tools.console nodes = .ok (.brokenOff .markup) := by
  obtain ⟨rows, hrows, -⟩ :=
    blockRows_of_compile (areTrees_of_load hload) (compile_of_ofBlocks hblocks)
  obtain ⟨counted, hcounted⟩ := hconsole.count nodes.length
  rw [tabled, hrows]
  dsimp only
  cases htable : tools.console.blockTable rows with
  | some shown =>
    rw [hcounted]
    exact .inl ⟨⟨nodes, rows, shown, hload, hrows, htable⟩, _, rfl⟩
  | none =>
    refine .inr ⟨?_, rfl⟩
    rintro ⟨_, _, shown, hload', hrows', htable'⟩
    obtain rfl := Except.ok.inj (hload.symm.trans hload')
    obtain rfl := Except.ok.inj (hrows.symm.trans hrows')
    cases htable.symm.trans htable'

/-- The table of blocks that compile is shown if their labels have no bracket. -/
theorem isTabled_of_text {source : String} {format : Format} {verify : Bool} {text : List Char}
    (hconsole : tools.console.IsLawful) (hplain : HasPlainLabels tools files source)
    (htext : Convert.text tools.toTools files source format verify = .ok text) :
    IsTabled tools files source := by
  rw [text_eq] at htext
  split at htext
  · cases htext
  · rename_i nodes hload
    obtain ⟨rows, hrows, hmatch⟩ :=
      blockRows_of_compile (areTrees_of_load hload) (compile_of_ofBlocks htext)
    obtain ⟨shown, hshown⟩ := blockTable_of_plain hconsole hmatch (hplain nodes hload)
    exact ⟨nodes, rows, shown, hload, hrows, hshown⟩

/-- Checking looks whether there is a result, and shows its blocks in a table. -/
theorem checks_checkSource {source : String} {bytes : List UInt8} (hparser : tools.parser.IsLawful)
    (hconsole : tools.console.IsLawful) (hwords : line.words = [source])
    (hfile : logged.itemOfName source = .ok (.file bytes)) :
    Checks (Convert.text tools.toTools logged source settings.options.format true)
      (IsTabled tools logged source) logged
      (conclude ((checkSource tools settings line).run logged)) := by
  rw [checkSource_run, checked, sourceVerdict_of_file hparser hwords hfile, text_eq]
  dsimp only
  cases hload : Source.load tools.toReaders logged source with
  | error error =>
    have hcode := code_ofConvertError tools.console "Check failed" (.load error)
    refine ⟨rfl, ?_, fun _ _ => hcode⟩
    simp [conclude, hcode]
  | ok nodes =>
    dsimp only
    cases hblocks : Convert.ofBlocks tools.toTools nodes settings.options.format true with
    | error error =>
      have hcode := code_ofConvertError tools.console "Check failed" error
      refine ⟨rfl, ?_, fun _ _ => hcode⟩
      simp [conclude, hcode]
    | ok text =>
      dsimp only
      rcases tabled_of_ofBlocks hconsole hload hblocks with
        ⟨htabled, output, htable⟩ | ⟨htabled, htable⟩
      · rw [htable]
        exact ⟨rfl, by simp [conclude, Outcome.done, Ending.code, htabled], by simp⟩
      · rw [htable]
        exact ⟨rfl, by simp [conclude, Outcome.brokenOff, Ending.code, htabled], by simp⟩

/-- **The commands agree with the conversion and with each other.** With settings that name a
directory, and a source that is there, let the result be that of converting the source with the
options of the settings. A run changes nothing before its command but the log. From there on,
compiling to the console changes no file and prints the result, exactly where it has no escape
character; compiling to a file succeeds exactly when there is a result and nothing is in the way of
the document, and makes the same change to the files as the conversion that writes the result; and
checking changes no file, and succeeds exactly when compiling to the console with verification does
and the blocks can be shown in a table, which they can where no label has a bracket. Where there is
no result, all of them fail and change no file. -/
theorem commands_agree (hparser : tools.parser.IsLawful) (hconsole : tools.console.IsLawful)
    {source directory : String} {bytes : List UInt8}
    (accepted : (opening tools home config).run files = (.ok settings, logged))
    (named : settings.outputDirectory = .text directory)
    (existing : files.itemOfName source = .ok (.file bytes)) :
    LogOnly home files logged ∧
    (∀ words line, Asks tools words config .compile line → line.words = [source] →
      line.toStdout = true →
        Prints tools.console
          (Convert.text tools.toTools files source settings.options.format (verifies settings line))
          logged (run tools home files words)) ∧
    (∀ words line, Asks tools words config .compile line → line.words = [source] →
      line.toStdout = false →
        Writes
          (Convert.text tools.toTools files source settings.options.format (verifies settings line))
          ((FilePath.ofText (target line directory)).below (.ofText "main.tf"))
          (Convert.run tools.toTools logged source (target line directory) "main.tf"
            settings.options.format (verifies settings line))
          logged (run tools home files words)) ∧
    (∀ words line, Asks tools words config .check line → line.words = [source] →
      Checks (Convert.text tools.toTools files source settings.options.format true)
        (IsTabled tools files source) logged (run tools home files words)) ∧
    ∀ words words' line line', Asks tools words config .check line → line.words = [source] →
      Asks tools words' config .compile line' → line'.words = [source] →
      line'.verify = some true → line'.toStdout = true →
        ((run tools home files words).1.ending.code = 0 ↔
          (run tools home files words').1.ending.code = 0 ∧ IsTabled tools files source) ∧
        (HasPlainLabels tools files source →
          ((run tools home files words).1.ending.code = 0 ↔
            (run tools home files words').1.ending.code = 0)) := by
  have hlog : LogOnly home files logged := by
    have h := logOnly_opening tools home config files
    rwa [accepted] at h
  have hfile : logged.itemOfName source = .ok (.file bytes) :=
    itemOfName_of_extends hlog.extends existing
  -- the log is new where it was not there, so the source is the one from before the run
  have hread := read_eq_of_extends hlog.extends existing
  have htabled : IsTabled tools logged source ↔ IsTabled tools files source := by
    unfold IsTabled
    rw [load_eq_of_read _ hread]
  have hprints : ∀ words line, Asks tools words config .compile line → line.words = [source] →
      line.toStdout = true →
        Prints tools.console
          (Convert.text tools.toTools files source settings.options.format (verifies settings line))
          logged (run tools home files words) := by
    intro words line hasks hwords hstdout
    rw [run_of_asks hasks accepted]
    refine prints_compileSource hconsole hstdout ?_
    rw [compiled_of_file hparser hwords hfile, text_eq_of_read _ _ _ hread]
  have hchecks : ∀ words line, Asks tools words config .check line → line.words = [source] →
      Checks (Convert.text tools.toTools files source settings.options.format true)
        (IsTabled tools files source) logged (run tools home files words) := by
    intro words line hasks hwords
    rw [run_of_asks hasks accepted, ← text_eq_of_read _ _ _ hread, ← htabled]
    exact checks_checkSource hparser hconsole hwords hfile
  refine ⟨hlog, hprints, ?_, hchecks, ?_⟩
  · intro words line hasks hwords hstdout
    rw [run_of_asks hasks accepted, ← text_eq_of_read _ _ _ hread]
    exact writes_compileSource hparser hconsole hstdout hwords hfile named
  · intro words words' line line' hcheck hwords hcompile hwords' hverify hstdout
    have hverifies : verifies settings line' = true := by
      rw [verifies, hverify]
      rfl
    rw [(hchecks words line hcheck hwords).succeeds_iff,
      (hprints words' line' hcompile hwords' hstdout).succeeds_iff, hverifies]
    refine ⟨Iff.rfl, fun hplain => and_iff_left_of_imp ?_⟩
    rintro ⟨text, htext⟩
    exact isTabled_of_text hconsole hplain htext

/-- The text of a source whose document has a control sequence. -/
def colouredText : List Char :=
  ("\x7b\"block\": [\"k\"], \"attributes\": " ++
    "\x7b\"a\": \x7b\"$func\": \"a\\u001b[1 qb\"\x7d\x7d\x7d").toList

/-- Files with this source. -/
def colouredFiles : Files := ⟨[(["t.json"], .file (Text.encode colouredText))]⟩

/-- The words that print its document. -/
def printWords : List String := ["compile", "t.json", "--stdout", "--no-verify"]

/-- What these words say. -/
def printLine : CommandLine := { toStdout := true, verify := some false, words := ["t.json"] }

theorem asks_printWords : Asks .standard printWords none .compile printLine :=
  ⟨["t.json", "--stdout", "--no-verify"], rfl, rfl, rfl⟩

theorem opening_colouredFiles :
    (opening .standard "home" none).run colouredFiles =
      (.ok .standard, ((opening .standard "home" none).run colouredFiles).2) := by rfl

theorem itemOfName_colouredFiles :
    colouredFiles.itemOfName "t.json" = .ok (.file (Text.encode colouredText)) := by rfl

/-- The document is printed without its control sequence, and nothing but the log is made. -/
theorem prints_colouredFiles :
    ∃ logged, LogOnly "home" colouredFiles logged ∧
      Prints .standard (Convert.text .standard colouredFiles "t.json"
        Settings.standard.options.format (verifies .standard printLine)) logged
        (run .standard "home" colouredFiles printWords) := by
  obtain ⟨hlog, hprints, -⟩ := commands_agree Parser.standard_isLawful Console.standard_isLawful
    opening_colouredFiles rfl itemOfName_colouredFiles
  exact ⟨_, hlog, hprints printWords _ asks_printWords rfl rfl⟩

/-- What is printed is not what the conversion results in. -/
theorem printed_ne_text :
    ∃ logged text, (opening .standard "home" none).run colouredFiles = (.ok .standard, logged) ∧
      colouredFiles.itemOfName "t.json" = .ok (.file (Text.encode colouredText)) ∧
      (Convert.text .standard colouredFiles "t.json" Settings.standard.options.format
        (verifies .standard printLine)).toOption = some text ∧
      (run .standard "home" colouredFiles printWords).1.ending.code = 0 ∧
      (run .standard "home" colouredFiles printWords).1.output ≠ String.ofList text := by
  refine ⟨_, "k \x7b\n  a = a\x1b[1 qb\n\x7d\n".toList, opening_colouredFiles,
    itemOfName_colouredFiles, ?_⟩
  decide +kernel

/-- A label that ends a style keeps blocks that compile and verify from being checked. -/
example :
    let files : Files :=
      ⟨[(["t.json"], .file (Text.encode "\x7b\"block\": [\"k\", \"[/x]\"]\x7d".toList))]⟩
    (run .standard "home" files ["check", "t.json"]).1.ending.code = 1 ∧
      (run .standard "home" files ["compile", "t.json", "--verify", "--stdout"]).1.ending.code =
        0 := by
  decide +kernel

end Stanza.Cli
