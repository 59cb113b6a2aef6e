import Stanza.Proofs.Cli.Agreement
import Stanza.Proofs.Cli.Home

/-!
Runs under any configuration file.

A source that converts and verifies whatever the format is compiled and checked under any
configuration file that is used; what the file says can only lead to other settings, or to a report
of what is wrong with it (`Cli.Reports`). That is how it is meant to be, but the file can make the
run break off (`Cli.Breaks`): it is no text, or its reader fails on it instead of refusing it, or it
gives a directory that is no text and the document is to be written there. Apart from it only a
table of blocks that the console does not show makes a check break off. `Cli.run_ends` says that a
run breaks off on these and nothing else, and is done or ends in a report of what is wrong with the
file otherwise.
-/

namespace Stanza

open Files

/-! ### Reading a configuration file -/

namespace Settings

variable {codec : Codec} {files : Files} {name : String} {content : List UInt8}
  {error : SettingsError} {refusal : Refusal}

theorem readName_of_itemOfName (h : files.itemOfName name = .ok (.file content)) :
    files.readName name = .ok content := by
  obtain ⟨place, hplace, hitem⟩ := itemOfName_eq_ok_iff.mp h
  simp [readName, hplace, hitem, bytesOf, bind, Except.bind]

/-- The entries in the value of a configuration file. -/
def entriesOf (name : String) (value : Value) : Except SettingsError Entries :=
  if !value.truthy then return []
  else match value with
    | .mapping entries => return entries
    | _ => .error (.noMapping name)

theorem entries_of_itemOfName (h : files.itemOfName name = .ok (.file content)) :
    entries codec files name =
      (codec.read content).mapError .refused >>= entriesOf name := by
  rw [entries, readName_of_itemOfName h]
  rfl

/-- A file that is refused gives no settings. -/
theorem load_of_refused (h : files.itemOfName name = .ok (.file content))
    (hrefused : codec.read content = .error refusal) :
    load codec files name = .error (.refused refusal) := by
  rw [load, entries_of_itemOfName h, hrefused]
  rfl

/-- The content of a configuration file is refused, or else what is wrong with it is worded. -/
theorem load_eq_error (h : files.itemOfName name = .ok (.file content))
    (herror : load codec files name = .error error) :
    (∃ refusal, codec.read content = .error refusal ∧ error = .refused refusal) ∨
      ∃ message, error.message? = some message := by
  rw [load, entries_of_itemOfName h] at herror
  rcases bind_eq_error_iff.mp herror with herror | ⟨entries, -, herror⟩
  · rcases bind_eq_error_iff.mp herror with herror | ⟨value, -, herror⟩
    · obtain ⟨refusal, hrefused, rfl⟩ := mapError_eq_error_iff.mp herror
      exact .inl ⟨refusal, hrefused, rfl⟩
    · unfold entriesOf at herror
      split at herror
      · cases herror
      · split at herror
        · cases herror
        · cases herror
          exact .inr ⟨_, rfl⟩
  · obtain ⟨fault, -, rfl⟩ := mapError_eq_error_iff.mp (map_eq_error_iff.mp herror)
    exact .inr ⟨_, rfl⟩

end Settings

namespace Cli

variable {tools : Tools} {home : String} {files logged : Files} {words : List String}
  {config : Option String} {command : CommandName} {line : CommandLine} {source : String}
  {content : List UInt8}

/-- The name of the configuration file that a run uses. -/
def configInUse (home : String) (config : Option String) : String := config.getD (configName home)

/-- A source is there, and it converts and verifies whatever the format. -/
structure IsSound (tools : Tools) (files : Files) (source : String) : Prop where
  file : ∃ bytes, files.itemOfName source = .ok (.file bytes)
  converts : ∀ format, ∃ text, Convert.text tools.toTools files source format true = .ok text

/-- Wherever the document of a line belongs, nothing is in the way there. -/
def CanWrite (line : CommandLine) (settings : Settings) (files : Files) : Prop :=
  ∀ directory, directoryVerdict line settings = .ok directory →
    ¬files.Blocked (Convert.outputPath directory Convert.defaultFile)

/-- The document of a line belongs in a directory that settings give, and that is no text. -/
def LacksDirectory (line : CommandLine) (settings : Settings) : Prop :=
  line.toStdout = false ∧ line.out.filter (!·.isEmpty) = none ∧
    settings.outputDirectory.text? = none

/-- The report of what is wrong with the configuration file of a name, as the end of a run. -/
def Reports (tools : Tools) (files : Files) (name : String) (outcome : Outcome) : Prop :=
  ∃ error message shown, Settings.load tools.codec files name = .error error ∧
    error.message? = some message ∧
    tools.console.print (tools.console.reportLine "Could not load configuration" message) =
      some shown ∧
    outcome = ⟨.reported, shown⟩

/-- What a run on a line breaks off on, for a configuration file with the given content. -/
inductive Breaks (tools : Tools) (files : Files) (source : String) (command : CommandName)
    (line : CommandLine) (name : String) (content : List UInt8) : Breakdown → Prop where
  /-- The file is no text. -/
  | undecodable {account : String} : tools.codec.read content = .error (.undecodable account) →
      Breaks tools files source command line name content
        (.settings (.refused (.undecodable account)))
  /-- The reader fails on something in the file. -/
  | broken {account : String} : tools.codec.read content = .error (.broken account) →
      Breaks tools files source command line name content (.settings (.refused (.broken account)))
  /-- The document belongs in a directory that the file gives, and that is no text. -/
  | directory {settings : Settings} : Settings.load tools.codec files name = .ok settings →
      command = .compile → LacksDirectory line settings →
      Breaks tools files source command line name content
        (.directory settings.outputDirectory.kind)
  /-- The blocks cannot be shown in a table, whatever the settings. -/
  | table {settings : Settings} : Settings.load tools.codec files name = .ok settings →
      command = .check → ¬IsTabled tools files source →
      Breaks tools files source command line name content .markup

/-! ### What sound sources come to -/

theorem IsSound.text_eq_ok (h : IsSound tools files source) (format : Format) (verify : Bool) :
    ∃ text, Convert.text tools.toTools files source format verify = .ok text := by
  obtain ⟨text, htext⟩ := h.converts format
  cases verify with
  | true => exact ⟨text, htext⟩
  | false =>
    rw [text_eq] at htext ⊢
    split at htext
    · cases htext
    · rename_i nodes hload
      have hcompile := compile_of_ofBlocks htext
      refine ⟨text, ?_⟩
      rw [Convert.ofBlocks, hcompile]
      rfl

theorem directoryVerdict_eq_error {settings : Settings} {outcome : Outcome}
    (h : directoryVerdict line settings = .error outcome) :
    line.out.filter (!·.isEmpty) = none ∧ settings.outputDirectory.text? = none ∧
      outcome = .brokenOff (.directory settings.outputDirectory.kind) := by
  unfold directoryVerdict at h
  split at h
  · cases h
  · cases h
  · rename_i hout htext
    cases h
    refine ⟨hout, ?_, rfl⟩
    unfold Value.text?
    split
    · rename_i s heq
      exact absurd heq (htext s)
    · rfl

theorem directoryVerdict_ne_ok {settings : Settings} {directory : String}
    (hout : line.out.filter (!·.isEmpty) = none) (hnone : settings.outputDirectory.text? = none) :
    directoryVerdict line settings ≠ .ok directory := by
  intro h
  unfold directoryVerdict at h
  split at h
  · simp_all
  · rename_i htext
    rw [htext] at hnone
    cases hnone
  · cases h

/-- A line that compiles a sound source is done unless it lacks a directory. -/
theorem compileSource_ends {settings : Settings} (hparser : tools.parser.IsLawful)
    (hconsole : tools.console.IsLawful) (hwords : line.words = [source])
    (hsound : IsSound tools files source) (hlogged : Extends files logged)
    (hwrite : line.toStdout = false → CanWrite line settings logged) :
    ¬LacksDirectory line settings ∧
        (∃ output,
          (conclude ((compileSource tools settings line).run logged)).1 = .done output) ∨
      LacksDirectory line settings ∧
        (conclude ((compileSource tools settings line).run logged)).1 =
          .brokenOff (.directory settings.outputDirectory.kind) := by
  obtain ⟨bytes, hfile⟩ := hsound.file
  obtain ⟨text, htext⟩ :=
    hsound.text_eq_ok settings.options.format (verifies settings line)
  rw [← text_eq_of_read _ _ _ (read_eq_of_extends hlogged hfile)] at htext
  rw [compileSource_run, compiled_of_file hparser hwords (itemOfName_of_extends hlogged hfile),
    htext]
  dsimp only [Except.mapError]
  by_cases hstdout : line.toStdout = true
  · rw [if_pos hstdout]
    exact .inl ⟨fun h => Bool.noConfusion (hstdout.symm.trans h.1), _, rfl⟩
  rw [if_neg hstdout]
  have hfile := Bool.eq_false_iff.mpr hstdout
  cases hdirectory : directoryVerdict line settings with
  | error outcome =>
    obtain ⟨hout, hnone, rfl⟩ := directoryVerdict_eq_error hdirectory
    exact .inr ⟨⟨hfile, hout, hnone⟩, rfl⟩
  | ok directory =>
    have hgiven : ¬LacksDirectory line settings := fun h =>
      directoryVerdict_ne_ok h.2.1 h.2.2 hdirectory
    have hwritten := (writeBelow_isOk_iff _ (Text.encode text) logged).mpr
      (hwrite hfile directory hdirectory)
    obtain ⟨shown, hshown⟩ :=
      hconsole.wrote (Convert.outputPath directory Convert.defaultFile)
    dsimp only [Convert.writeDocument]
    split
    · rename_i hrun
      rw [hrun] at hwritten
      cases hwritten
    · rw [wrote, hshown]
      exact .inl ⟨hgiven, _, rfl⟩

/-- A line that checks a sound source is done when its blocks can be shown, and only then. -/
theorem checkSource_ends (settings : Settings) (hparser : tools.parser.IsLawful)
    (hconsole : tools.console.IsLawful) (hwords : line.words = [source])
    (hsound : IsSound tools files source) (hlogged : Extends files logged) :
    IsTabled tools files source ∧
        (∃ output, (conclude ((checkSource tools settings line).run logged)).1 = .done output) ∨
      ¬IsTabled tools files source ∧
        (conclude ((checkSource tools settings line).run logged)).1 = .brokenOff .markup := by
  obtain ⟨bytes, hfile⟩ := hsound.file
  obtain ⟨text, htext⟩ := hsound.converts settings.options.format
  have hload : Source.load tools.toReaders logged source =
      Source.load tools.toReaders files source :=
    load_eq_of_read _ (read_eq_of_extends hlogged hfile)
  rw [checkSource_run, checked,
    sourceVerdict_of_file hparser hwords (itemOfName_of_extends hlogged hfile)]
  dsimp only
  rw [hload]
  rw [text_eq] at htext
  cases hnodes : Source.load tools.toReaders files source with
  | error error =>
    rw [hnodes] at htext
    cases htext
  | ok nodes =>
    rw [hnodes] at htext
    dsimp only at htext ⊢
    rw [htext]
    dsimp only
    rcases tabled_of_ofBlocks hconsole hnodes htext with
      ⟨htabled, output, htable⟩ | ⟨htabled, htable⟩
    · rw [htable]
      exact .inl ⟨htabled, output, rfl⟩
    · rw [htable]
      exact .inr ⟨htabled, rfl⟩

/-! ### Runs -/

/-- A fault of the settings that is worded is reported. -/
theorem ofSettingsError_of_message {console : Console} (hconsole : console.IsLawful)
    {error : SettingsError} {message : String} (hmessage : error.message? = some message) :
    ∃ shown, console.print (console.reportLine "Could not load configuration" message) =
        some shown ∧
      Outcome.ofSettingsError console error = ⟨.reported, shown⟩ := by
  obtain ⟨shown, hshown⟩ :=
    hconsole.report "Could not load configuration" (by simp) message
  refine ⟨shown, hshown, ?_⟩
  rw [Outcome.ofSettingsError, hmessage]
  simp only [Console.report, List.isEmpty_nil, if_true, List.map_cons, List.map_nil, hshown,
    Outcome.showing, String.empty_append]

/-- How reading the settings ends a run, if it does. -/
theorem ofSettingsError_ends {error : SettingsError} (hconsole : tools.console.IsLawful)
    (hconfig : files.itemOfName (configInUse home config) = .ok (.file content))
    (herror : Settings.load tools.codec files (configInUse home config) = .error error) :
    Reports tools files (configInUse home config) (.ofSettingsError tools.console error) ∨
    ∃ breakdown, Outcome.ofSettingsError tools.console error = .brokenOff breakdown ∧
      Breaks tools files source command line (configInUse home config) content breakdown := by
  have hreports : ∀ message, error.message? = some message →
      Reports tools files (configInUse home config) (.ofSettingsError tools.console error) := by
    intro message hmessage
    obtain ⟨shown, hshown, hends⟩ := ofSettingsError_of_message hconsole hmessage
    exact ⟨error, message, shown, herror, hmessage, hshown, hends⟩
  rcases Settings.load_eq_error hconfig herror with ⟨refusal, hrefused, rfl⟩ | ⟨message, hmessage⟩
  · cases refusal with
    | malformed account => exact .inl (hreports account rfl)
    | undecodable account => exact .inr ⟨_, rfl, .undecodable hrefused⟩
    | broken account => exact .inr ⟨_, rfl, .broken hrefused⟩
  · exact .inl (hreports message hmessage)

theorem extends_of_prepareLog (hlog : (prepareLog home).run files = (.ok (), logged)) :
    Extends files logged := by
  have h := (logOnly_prepareLog home files).extends
  rwa [hlog] at h

/-- The settings are those in the configuration file that is used. -/
theorem settingsOf_eq (tools : Tools) (hlogged : Extends files logged)
    (hconfig : files.itemOfName (configInUse home config) = .ok (.file content)) :
    settingsOf tools home logged config =
      (Settings.load tools.codec files (configInUse home config)).mapError
        (.ofSettingsError tools.console) := by
  have hlater := itemOfName_of_extends hlogged hconfig
  have hload : Settings.load tools.codec logged (configInUse home config) =
      Settings.load tools.codec files (configInUse home config) :=
    load_eq_of_readName _ ((Settings.readName_of_itemOfName hlater).trans
      (Settings.readName_of_itemOfName hconfig).symm)
  cases config with
  | some name => exact congrArg (Except.mapError _) hload
  | none =>
    have hexists : logged.exists? (configName home) = true := by
      rw [exists?, show logged.itemOfName (configName home) = _ from hlater]
      rfl
    rw [settingsOf, if_pos hexists]
    exact congrArg (Except.mapError _) hload

/-- A run under a configuration file reads the settings in it, and goes on with the command. -/
theorem run_configured (hparser : tools.parser.IsLawful)
    (hasks : Asks tools words config command line)
    (hconfig : files.itemOfName (configInUse home config) = .ok (.file content))
    (hlog : (prepareLog home).run files = (.ok (), logged)) :
    (run tools home files words).1 =
      match Settings.load tools.codec files (configInUse home config) with
      | .error error => .ofSettingsError tools.console error
      | .ok settings =>
          (conclude ((commandBody tools home settings command line).run logged)).1 := by
  have hlogged := extends_of_prepareLog hlog
  have hopening : (opening tools home config).run files =
      (settingsOf tools home logged config, logged) := by
    have hverdict : configVerdict tools files config = .ok () := by
      cases config with
      | none => rfl
      | some name => exact (fileVerdict_eq_ok_iff hparser).mpr ⟨content, hconfig⟩
    rw [opening_run, hverdict, hlog]
  rw [settingsOf_eq tools hlogged hconfig] at hopening
  cases hload : Settings.load tools.codec files (configInUse home config) with
  | error error =>
    obtain ⟨own, hplan, -⟩ := hasks
    rw [run_of_begun hplan, hopening, hload]
    rfl
  | ok settings =>
    rw [hload] at hopening
    rw [run_of_asks hasks hopening]

/-- What a run breaks off on is what comes of the settings, or of the command with them. -/
theorem run_of_breaks {breakdown : Breakdown} (hparser : tools.parser.IsLawful)
    (hconsole : tools.console.IsLawful) (hasks : Asks tools words config command line)
    (hwords : line.words = [source]) (hsound : IsSound tools files source)
    (hconfig : files.itemOfName (configInUse home config) = .ok (.file content))
    (hlog : (prepareLog home).run files = (.ok (), logged))
    (hwrite : ∀ settings, Settings.load tools.codec files (configInUse home config) = .ok settings →
      line.toStdout = false → CanWrite line settings logged)
    (h : Breaks tools files source command line (configInUse home config) content breakdown) :
    (run tools home files words).1 = .brokenOff breakdown := by
  have hlogged := extends_of_prepareLog hlog
  rw [run_configured hparser hasks hconfig hlog]
  cases h with
  | undecodable hrefused =>
    rw [Settings.load_of_refused hconfig hrefused]
    rfl
  | broken hrefused =>
    rw [Settings.load_of_refused hconfig hrefused]
    rfl
  | @directory settings hsettings hcompile hlacks =>
    subst hcompile
    rw [hsettings]
    rcases compileSource_ends hparser hconsole hwords hsound hlogged (hwrite settings hsettings)
      with ⟨hgiven, -⟩ | ⟨-, hbroken⟩
    · exact absurd hlacks hgiven
    · exact hbroken
  | @table settings hsettings hcheck htabled =>
    subst hcheck
    rw [hsettings]
    rcases checkSource_ends settings hparser hconsole hwords hsound hlogged with
      ⟨hshown, -⟩ | ⟨-, hbroken⟩
    · exact absurd hshown htabled
    · exact hbroken

/-- **Configuration files and how runs end.** Compiling or checking a source that converts and
verifies whatever the format, with an output that can be written, under a configuration file that
is there, is done, or it ends in a report of what is wrong with the file, or it breaks off. It
breaks off exactly when the file is no text, when its reader fails on it, when it gives a directory
that is no text and the document is to be written there, or when a check has blocks that cannot be
shown in a table. -/
theorem run_ends (hparser : tools.parser.IsLawful) (hconsole : tools.console.IsLawful)
    (hasks : Asks tools words config command line) (hcommand : command ≠ .init)
    (hwords : line.words = [source]) (hsound : IsSound tools files source)
    (hconfig : files.itemOfName (configInUse home config) = .ok (.file content))
    (hlog : (prepareLog home).run files = (.ok (), logged))
    (hwrite : ∀ settings, Settings.load tools.codec files (configInUse home config) = .ok settings →
      line.toStdout = false → CanWrite line settings logged) :
    ((∃ output, (run tools home files words).1 = .done output) ∨
      Reports tools files (configInUse home config) (run tools home files words).1 ∨
      ∃ breakdown, (run tools home files words).1 = .brokenOff breakdown) ∧
    ∀ breakdown, (run tools home files words).1 = .brokenOff breakdown ↔
      Breaks tools files source command line (configInUse home config) content breakdown := by
  have hlogged := extends_of_prepareLog hlog
  have hends : (∃ output, (run tools home files words).1 = .done output) ∨
      Reports tools files (configInUse home config) (run tools home files words).1 ∨
      ∃ breakdown, (run tools home files words).1 = .brokenOff breakdown ∧
        Breaks tools files source command line (configInUse home config) content breakdown := by
    rw [run_configured hparser hasks hconfig hlog]
    cases hload : Settings.load tools.codec files (configInUse home config) with
    | error error => exact .inr (ofSettingsError_ends hconsole hconfig hload)
    | ok settings =>
      cases command with
      | compile =>
        rcases compileSource_ends hparser hconsole hwords hsound hlogged (hwrite settings hload)
          with ⟨-, hdone⟩ | ⟨hlacks, hbroken⟩
        · exact .inl hdone
        · exact .inr (.inr ⟨_, hbroken, .directory hload rfl hlacks⟩)
      | check =>
        rcases checkSource_ends settings hparser hconsole hwords hsound hlogged with
          ⟨-, hdone⟩ | ⟨htabled, hbroken⟩
        · exact .inl hdone
        · exact .inr (.inr ⟨_, hbroken, .table hload rfl htabled⟩)
      | init => exact absurd rfl hcommand
  constructor
  · exact hends.imp_right (.imp_right fun ⟨breakdown, hbroken, _⟩ => ⟨breakdown, hbroken⟩)
  · intro breakdown
    refine ⟨fun hbroken => ?_,
      run_of_breaks hparser hconsole hasks hwords hsound hconfig hlog hwrite⟩
    rcases hends with ⟨_, hdone⟩ | ⟨_, _, _, _, _, _, hreported⟩ | ⟨found, hfound, hbreaks⟩
    · cases hdone.symm.trans hbroken
    · cases hreported.symm.trans hbroken
    · cases hfound.symm.trans hbroken
      exact hbreaks

/-! ### A file that is no text -/

/-- A block without contents. -/
def terraform : Value := .block (.list [.text "terraform"]) (.mapping []) (.list [])

def areTerraform : List Value → Bool
  | [.block (.list [.text "terraform"]) (.mapping []) (.list [])] => true
  | _ => false

theorem eq_of_areTerraform {nodes : List Value} (h : areTerraform nodes) : nodes = [terraform] := by
  unfold areTerraform at h
  split at h
  · rfl
  · cases h

theorem lines_terraform (style : Style) : Block.lines style [] terraform =
    .ok [.code 0 "terraform \x7b".toList, .code 0 ['\x7d']] := by
  have hheader : Block.header [] (.list [.text "terraform"]) =
      .ok ("terraform".toList, "terraform") := rfl
  rw [terraform, Block.lines, hheader]
  simp [Block.attributeEntries, Block.checkChildren, Block.areChildren, Attributes.ofEntries,
    Attributes.nameTexts, Block.childLines, Block.itemLines, Value.renderEntries,
    Assignment.renderAll, Assignment.align, bind, Except.bind, pure, Except.pure]

theorem ofBlocks_terraform (format : Format) :
    ∃ text, Convert.ofBlocks .standard [terraform] format true = .ok text := by
  have hcompile : Document.compile format [terraform] = .ok (Document.assemble [Line.writeAll
      format.indentWidth 0 [.code 0 "terraform \x7b".toList, .code 0 ['\x7d']]]) := by
    rw [Document.compile, Document.blockTexts, Block.compile, lines_terraform]
    rfl
  exact ⟨_, by rw [Convert.ofBlocks, hcompile]; rfl⟩

/-- Files with a source that defines this block, and a configuration file that is no text. -/
def undecodable : Files :=
  ⟨[(["a.json"], .file (Text.encode "\x7b\"block\": \"terraform\"\x7d".toList)),
    (["home"], .directory), (["home", ".hclscript"], .directory),
    (["home", ".hclscript", "config.yaml"], .file [0xff])]⟩

theorem load_undecodable : Source.load .standard undecodable "a.json" = .ok [terraform] := by
  have hload : (Source.load .standard undecodable "a.json").toOption.any areTerraform := by
    decide +kernel
  obtain ⟨nodes, hnodes, hterraform⟩ := exists_ok_of_any hload
  rw [hnodes, eq_of_areTerraform hterraform]

theorem isSound_undecodable : IsSound .standard undecodable "a.json" where
  file := ⟨_, rfl⟩
  converts format := by
    rw [text_eq, show Source.load Tools.standard.toReaders undecodable "a.json" = _ from
      load_undecodable]
    exact ofBlocks_terraform format

/-- The words that compile this source to the console. -/
def printsSource : List String := ["compile", "a.json", "--stdout"]

theorem asks_printsSource :
    Asks .standard printsSource none .compile { toStdout := true, words := ["a.json"] } :=
  ⟨["a.json", "--stdout"], rfl, rfl, rfl⟩

theorem prepareLog_undecodable : (prepareLog "home").run undecodable =
    (.ok (), ((prepareLog "home").run undecodable).2) := by rfl

theorem itemOfName_undecodable :
    undecodable.itemOfName (configName "home") = .ok (.file [0xff]) := by rfl

/-- A run under this configuration file breaks off on what makes it, and on nothing else. -/
theorem run_ends_undecodable :
    let ran := run .standard "home" undecodable printsSource
    ((∃ output, ran.1 = .done output) ∨
      Reports .standard undecodable (configName "home") ran.1 ∨
      ∃ breakdown, ran.1 = .brokenOff breakdown) ∧
    ∀ breakdown, ran.1 = .brokenOff breakdown ↔
      Breaks .standard undecodable "a.json" .compile { toStdout := true, words := ["a.json"] }
        (configName "home") [0xff] breakdown := by
  intro ran
  have hends := run_ends Parser.standard_isLawful Console.standard_isLawful asks_printsSource
    CommandName.noConfusion rfl isSound_undecodable itemOfName_undecodable prepareLog_undecodable
    fun _ _ hstdout => Bool.noConfusion hstdout
  exact hends

/-- A source that converts whatever the format is not compiled, and nothing is reported. -/
theorem undecodable_breaks : IsSound .standard undecodable "a.json" ∧
    undecodable.itemOfName (configName "home") = .ok (.file [0xff]) ∧
    ∃ account, (run .standard "home" undecodable printsSource).1 =
      .brokenOff (.settings (.refused (.undecodable account))) := by
  refine ⟨isSound_undecodable, itemOfName_undecodable, Text.decodingAccount [0xff], ?_⟩
  rw [run_configured Parser.standard_isLawful asks_printsSource itemOfName_undecodable
    prepareLog_undecodable]
  rfl

end Cli

end Stanza
