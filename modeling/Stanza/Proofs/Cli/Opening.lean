import Stanza.Proofs.Cli.Laws
import Stanza.Proofs.Files.Following

/-!
How a run begins.

Whatever command is asked for, a run begins in the same way (`Cli.opening`): the configuration file
that was named is looked for, a place for the log is made, and the settings are read. Only the
second of these changes files, and only by the log and the directories above it (`Cli.LogOnly`).
Once the log is in its place, which is what `Cli.IsLogged` says, nothing is changed any more
(`Cli.prepareLog_run_of_isLogged`); and where it could not be put in place, trying again leaves the
files as the first try did (`Cli.prepareLog_again`).

What the words of a run come to before any file is looked at is its plan (`Cli.plan`).

* `Cli.run_of_begun`: a run on words that ask for a command is its beginning and the command.
* `Cli.run_of_answered`, `Cli.run_of_checked`: a run on other words changes nothing.
-/

namespace Stanza.Cli

open Files

/-! ### Running steps -/

namespace Step

variable {α β ε : Type}

theorem run_get (outcome : ε → Outcome) (result : Except ε α) (files : Files) :
    (Step.get outcome result).run files = (result.mapError outcome, files) := rfl

theorem run_act (action : FileAction α) (files : Files) :
    (Step.act action).run files =
      ((action.run files).1.mapError fun error => .brokenOff (.files error),
        (action.run files).2) := rfl

theorem run_files (files : Files) : (Step.files).run files = (.ok files, files) := rfl

end Step

/-- The outcome of some steps, and the files that they leave. -/
def conclude : Except Outcome Outcome × Files → Outcome × Files
  | (.ok outcome, files) | (.error outcome, files) => (outcome, files)

theorem conclude_snd (ran : Except Outcome Outcome × Files) : (conclude ran).2 = ran.2 := by
  rcases ran with ⟨_ | _, _⟩
  · rfl
  · rfl

theorem conclude_mk_snd (result : Except Outcome Outcome) (files : Files) :
    (conclude (result, files)).2 = files :=
  conclude_snd _

theorem conclude_fst_congr {ran ran' : Except Outcome Outcome × Files} (h : ran.1 = ran'.1) :
    (conclude ran).1 = (conclude ran').1 := by
  obtain ⟨result, files⟩ := ran
  obtain ⟨result', files'⟩ := ran'
  obtain rfl : result = result' := h
  cases result with
  | error outcome => rfl
  | ok outcome => rfl

theorem run_eq (tools : Tools) (home : String) (files : Files) (words : List String) :
    run tools home files words = conclude ((steps tools home words).run files) := by
  unfold run conclude
  rcases (steps tools home words).run files with ⟨_ | _, after⟩
  · rfl
  · rfl

/-! ### The place for the log -/

section Log

variable {home : String} {files : Files}

/-- The log is in its place. -/
def IsLogged (home : String) (files : Files) : Prop :=
  files.isDirectory (logDirectory home) ∧
    ∃ bytes, files.item? (locate (logPath home)) = some (.file bytes)

/-- Nothing is changed but that the log, and directories above it, may be new. -/
def LogOnly (home : String) (before after : Files) : Prop :=
  ∀ place, after.item? place = before.item? place ∨
    before.item? place = none ∧
      (after.item? place = some .directory ∧ IsAbove (logDirectory home) place ∨
        after.item? place = some (.file []) ∧ place = locate (logPath home))

theorem LogOnly.extends {after : Files} (h : LogOnly home files after) : Extends files after := by
  intro place item hitem
  rcases h place with hsame | ⟨hnone, -⟩
  · rw [hsame, hitem]
  · simp [hnone] at hitem

theorem logPath_eq (home : String) :
    logPath home = ⟨(logDirectory home).absolute, (logDirectory home).parts ++ ["hclscript.log"]⟩ :=
  rfl

theorem place_logPath (h : files.isDirectory (logDirectory home)) :
    files.place (logPath home) = .ok (locate (logPath home)) :=
  place_in_directory h (by decide) (by decide)

theorem touch_run (p : FilePath) (files : Files) :
    (touch p).run files =
      match files.place p with
      | .error error => (.error error, files)
      | .ok place =>
          match files.item? place with
          | some (.file _) => (.ok (), files)
          | _ => (write p []).run files := by
  rw [touch, run_bind, run_get]
  dsimp only
  rw [run_bind, run_look]
  cases files.place p with
  | error error => rfl
  | ok place =>
    cases hitem : files.item? place with
    | none => simp only [hitem]
    | some item =>
      cases item with
      | directory => simp only [hitem]
      | file bytes => simp only [hitem]; rfl

/-- The log is put in its place, or a directory is there instead. -/
theorem touch_run_logPath (h : files.isDirectory (logDirectory home)) :
    (touch (logPath home)).run files =
      match files.item? (locate (logPath home)) with
      | some (.file _) => (.ok (), files)
      | some .directory => (.error .isDirectory, files)
      | none => (.ok (), files.put (locate (logPath home)) (.file [])) := by
  rw [touch_run, place_logPath h]
  dsimp only
  cases hitem : files.item? (locate (logPath home)) with
  | none =>
    simp only [write_run, place_logPath h, hitem]
  | some item =>
    cases item with
    | directory => simp only [write_run, place_logPath h, hitem]
    | file bytes => rfl

theorem prepareLog_run (home : String) (files : Files) :
    (prepareLog home).run files =
      match (ensureDirectory (logDirectory home)).run files with
      | (.error error, after) => (.error (.brokenOff (.files error)), after)
      | (.ok _, made) =>
          (((touch (logPath home)).run made).1.mapError fun error => .brokenOff (.files error),
            ((touch (logPath home)).run made).2) := by
  rw [prepareLog, run_bind, Step.run_act]
  rcases (ensureDirectory (logDirectory home)).run files with ⟨error | _, made⟩
  · rfl
  · rfl

/-- Where the log is in its place, nothing is done. -/
theorem prepareLog_run_of_isLogged (h : IsLogged home files) :
    (prepareLog home).run files = (.ok (), files) := by
  obtain ⟨hdirectory, bytes, hitem⟩ := h
  rw [prepareLog_run, ensureDirectory_of_isDirectory hdirectory]
  dsimp only
  rw [touch_run_logPath hdirectory, hitem]
  rfl

/-- A place for the log is made exactly when the log is in its place afterwards. -/
theorem prepareLog_isOk (home : String) (files : Files) :
    ((prepareLog home).run files).1 = .ok () ↔ IsLogged home ((prepareLog home).run files).2 := by
  have hends := ensureDirectory_isOk (logDirectory home) files
  rw [prepareLog_run]
  rcases hmade : (ensureDirectory (logDirectory home)).run files with ⟨error | _, made⟩
  · rw [hmade] at hends
    constructor
    · intro h
      simp at h
    · intro h
      cases hends.mpr h.1
  · rw [hmade] at hends
    have hdirectory : made.isDirectory (logDirectory home) := hends.mp rfl
    simp only [touch_run_logPath hdirectory]
    cases hitem : made.item? (locate (logPath home)) with
    | none =>
      refine ⟨fun _ => ⟨isDirectory_of_extends (extends_put _ hitem) hdirectory, [], ?_⟩,
        fun _ => rfl⟩
      rw [item?_put _ _ (by simp [hitem]), if_pos rfl]
    | some item =>
      cases item with
      | file bytes => exact ⟨fun _ => ⟨hdirectory, bytes, hitem⟩, fun _ => rfl⟩
      | directory =>
        constructor
        · intro h
          simp [Except.mapError] at h
        · rintro ⟨-, bytes, hfile⟩
          simp [hitem] at hfile

/-- Trying once more to make a place for the log changes nothing. -/
theorem prepareLog_again (home : String) (files : Files) :
    ((prepareLog home).run ((prepareLog home).run files).2).2 =
      ((prepareLog home).run files).2 := by
  have hlogged := prepareLog_isOk home files
  have hends := ensureDirectory_isOk (logDirectory home) files
  have hagain := ensureDirectory_again (logDirectory home) files
  rcases hrun : (prepareLog home).run files with ⟨outcome | _, after⟩
  case ok =>
    rw [hrun] at hlogged
    exact congrArg Prod.snd (prepareLog_run_of_isLogged (hlogged.mp rfl))
  case error =>
    rw [prepareLog_run] at hrun
    rcases hmade : (ensureDirectory (logDirectory home)).run files with ⟨error | _, made⟩
    case error =>
      rw [hmade] at hends hagain hrun
      obtain rfl : made = after := (Prod.mk.inj hrun).2
      -- the directory of the log is as far from being there as it was
      rcases hsecond : (ensureDirectory (logDirectory home)).run made with ⟨error' | _, last⟩
      case error =>
        rw [hsecond] at hagain
        rw [prepareLog_run, hsecond]
        exact hagain
      case ok =>
        have hends' := ensureDirectory_isOk (logDirectory home) made
        rw [hsecond] at hends' hagain
        obtain rfl : last = made := hagain
        cases hends.mpr (hends'.mp rfl)
    case ok =>
      rw [hmade] at hends hrun
      have hdirectory : made.isDirectory (logDirectory home) := hends.mp rfl
      simp only [touch_run_logPath hdirectory] at hrun
      cases hitem : made.item? (locate (logPath home)) with
      | none =>
        rw [hitem] at hrun
        cases (Prod.mk.inj hrun).1
      | some item =>
        cases item with
        | file bytes =>
          rw [hitem] at hrun
          cases (Prod.mk.inj hrun).1
        | directory =>
          rw [hitem] at hrun
          obtain rfl : made = after := (Prod.mk.inj hrun).2
          rw [prepareLog_run, ensureDirectory_of_isDirectory hdirectory]
          simp only [touch_run_logPath hdirectory, hitem]

/-- A place for the log is all that is made. -/
theorem logOnly_prepareLog (home : String) (files : Files) :
    LogOnly home files ((prepareLog home).run files).2 := by
  have hgrows := leaves_ensureDirectory (logDirectory home) files
  have hends := ensureDirectory_isOk (logDirectory home) files
  have hlog : ∀ made : Files, Grows (IsAbove (logDirectory home)) files made →
      LogOnly home files made := by
    intro made hmade place
    rcases hmade place with hsame | ⟨hnone, hnew, habove⟩
    · exact .inl hsame
    · exact .inr ⟨hnone, .inl ⟨hnew, habove⟩⟩
  rw [prepareLog_run]
  rcases hmade : (ensureDirectory (logDirectory home)).run files with ⟨error | _, made⟩
  · rw [hmade] at hgrows
    exact hlog made hgrows
  · rw [hmade] at hgrows hends
    simp only [touch_run_logPath (hends.mp rfl)]
    cases hitem : made.item? (locate (logPath home)) with
    | some item =>
      cases item with
      | file bytes => exact hlog made hgrows
      | directory => exact hlog made hgrows
    | none =>
      intro place
      dsimp only
      rw [item?_put _ _ (by simp [hitem])]
      split
      · rename_i hplace
        refine .inr ⟨?_, .inr ⟨rfl, hplace⟩⟩
        rcases hgrows place with hsame | ⟨hnone, -, -⟩
        · rw [← hsame, hplace]
          exact hitem
        · exact hnone
      · exact hlog made hgrows place

end Log

/-! ### The beginning of a run -/

/-- What some words come to before any file is looked at. -/
inductive Plan where
  /-- They are answered at once. -/
  | answered (outcome : Outcome)
  /-- They have this outcome if there is the configuration file that they name. -/
  | checked (config : Option String) (outcome : Outcome)
  /-- They ask for a command, whose own words are not looked at yet. -/
  | begun (config : Option String) (command : CommandName) (own : List String)

/-- What some words come to before any file is looked at. -/
def plan (tools : Tools) (words : List String) : Plan :=
  match tools.parser.globals words with
  | .error _ => .answered .misused
  | .ok (options, rest) =>
      match options.notice with
      | some notice => .answered (noticed tools notice)
      | none =>
          match tools.parser.request rest with
          | .error _ => .checked options.config .misused
          | .ok (.notice notice) => .checked options.config (noticed tools notice)
          | .ok (.command command own) => .begun options.config command own

/-- Looks for the configuration file that is named, if one is. -/
def checkConfig (tools : Tools) : Option String → Step Unit
  | none => return
  | some name => checkFile tools name

/-- The beginning of a run on a command. -/
def opening (tools : Tools) (home : String) (config : Option String) : Step Settings := do
  checkConfig tools config
  prepareLog home
  settingsFor tools home config

section Run

variable {tools : Tools} {home : String} {files : Files} {words : List String}
  {config : Option String}

/-- Whether there is a file of a name, for a run that needs one. -/
def fileVerdict (tools : Tools) (files : Files) (name : String) : Except Outcome Unit :=
  match tools.parser.vet (files.itemOfName name) with
  | .accepted => .ok ()
  | .refused => .error .misused
  | .broken error => .error (.brokenOff (.files error))

theorem checkFile_run (tools : Tools) (name : String) (files : Files) :
    (checkFile tools name).run files = (fileVerdict tools files name, files) := by
  rw [checkFile, run_bind, Step.run_files]
  unfold fileVerdict
  dsimp only
  cases tools.parser.vet (files.itemOfName name) with
  | accepted => rfl
  | refused => rfl
  | broken error => rfl

theorem fileVerdict_eq_ok_iff {name : String} (hparser : tools.parser.IsLawful) :
    fileVerdict tools files name = .ok () ↔
      ∃ bytes, files.itemOfName name = .ok (.file bytes) := by
  unfold fileVerdict
  cases hitem : files.itemOfName name with
  | ok item =>
    cases item with
    | file bytes => simp [hparser.file]
    | directory => simp [hparser.directory]
  | error error =>
    by_cases hnull : error = .nullCharacter
    · simp [hnull, hparser.null]
    · simp [hparser.missing error hnull]

/-- Whether the configuration file that is named is there. -/
def configVerdict (tools : Tools) (files : Files) : Option String → Except Outcome Unit
  | none => .ok ()
  | some name => fileVerdict tools files name

theorem checkConfig_run (tools : Tools) (config : Option String) (files : Files) :
    (checkConfig tools config).run files = (configVerdict tools files config, files) := by
  cases config with
  | none => rfl
  | some name => exact checkFile_run tools name files

/-- The settings in the configuration file of a name, for a run. -/
def settingsIn (tools : Tools) (files : Files) (name : String) : Except Outcome Settings :=
  (Settings.load tools.codec files name).mapError (.ofSettingsError tools.console)

/-- The settings of a run, as the files are. -/
def settingsOf (tools : Tools) (home : String) (files : Files) :
    Option String → Except Outcome Settings
  | some name => settingsIn tools files name
  | none =>
      if files.exists? (configName home) then settingsIn tools files (configName home)
      else .ok .standard

theorem settingsFor_run (tools : Tools) (home : String) (config : Option String) (files : Files) :
    (settingsFor tools home config).run files = (settingsOf tools home files config, files) := by
  rw [settingsFor, run_bind, Step.run_files]
  cases config with
  | some name => rfl
  | none =>
    unfold settingsOf
    dsimp only
    split
    · rfl
    · rfl

/-- The beginning of a run, file by file. -/
theorem opening_run (tools : Tools) (home : String) (config : Option String) (files : Files) :
    (opening tools home config).run files =
      match configVerdict tools files config with
      | .error outcome => (.error outcome, files)
      | .ok _ =>
          match (prepareLog home).run files with
          | (.error outcome, after) => (.error outcome, after)
          | (.ok _, logged) => (settingsOf tools home logged config, logged) := by
  rw [opening, run_bind, checkConfig_run]
  cases configVerdict tools files config with
  | error outcome => rfl
  | ok _ =>
    dsimp only
    rw [run_bind]
    rcases (prepareLog home).run files with ⟨outcome | _, logged⟩
    · rfl
    · exact settingsFor_run tools home config logged

/-- A run whose first words give no notice looks for the configuration file and then at the words
that are left. -/
theorem steps_run_of_parse {options : GlobalOptions} {rest : List String}
    (hparse : tools.parser.globals words = .ok (options, rest))
    (hnotice : options.notice = none) :
    (steps tools home words).run files =
      match configVerdict tools files options.config with
      | .error outcome => (.error outcome, files)
      | .ok _ =>
          match tools.parser.request rest with
          | .error _ => (.error .misused, files)
          | .ok request => (answer tools home options.config request).run files := by
  have hrest (config : Option String) :
      (do answer tools home config (← Step.words (tools.parser.request rest)) :
          Step Outcome).run files =
        match tools.parser.request rest with
        | .error _ => (.error .misused, files)
        | .ok request => (answer tools home config request).run files := by
    rw [Step.words, run_bind, Step.run_get]
    cases tools.parser.request rest with
    | error error => rfl
    | ok request => rfl
  rw [steps, Step.words, run_bind, Step.run_get, hparse]
  simp only [Except.mapError, hnotice]
  cases options.config with
  | none => exact hrest none
  | some name =>
    dsimp only [configVerdict]
    rw [run_bind, checkFile_run]
    cases fileVerdict tools files name with
    | error outcome => rfl
    | ok _ => exact hrest (some name)

/-- Words that are answered at once change nothing. -/
theorem run_of_answered {outcome : Outcome} (h : plan tools words = .answered outcome) :
    run tools home files words = (outcome, files) := by
  rw [run_eq, steps, Step.words, run_bind, Step.run_get]
  unfold plan at h
  split at h
  · rename_i error hparse
    obtain rfl := Plan.answered.inj h
    rw [hparse]
    rfl
  · rename_i options rest hparse
    rw [hparse]
    split at h
    · rename_i notice hnotice
      obtain rfl := Plan.answered.inj h
      simp only [Except.mapError, hnotice]
      rfl
    · split at h
      · cases h
      · cases h
      · cases h

/-- Words that ask for no command are looked at after the configuration file that they name. -/
theorem run_of_checked {outcome : Outcome} (h : plan tools words = .checked config outcome) :
    run tools home files words =
      match configVerdict tools files config with
      | .error verdict => (verdict, files)
      | .ok _ => (outcome, files) := by
  rw [run_eq]
  unfold plan at h
  split at h
  · cases h
  · rename_i options rest hparse
    split at h
    · cases h
    · rename_i hnotice
      rw [steps_run_of_parse hparse hnotice]
      split at h
      · rename_i error hrequest
        obtain ⟨rfl, rfl⟩ := Plan.checked.inj h
        rw [hrequest]
        cases configVerdict tools files options.config with
        | error verdict => rfl
        | ok _ => rfl
      · rename_i notice hrequest
        obtain ⟨rfl, rfl⟩ := Plan.checked.inj h
        rw [hrequest]
        cases configVerdict tools files options.config with
        | error verdict => rfl
        | ok _ => rfl
      · cases h

/-- **A run is its beginning and the command.** Words that ask for a command are run by looking for
the configuration file, making a place for the log and reading the settings, and then by performing
the command with the settings on the files that this leaves. -/
theorem run_of_begun {command : CommandName} {own : List String}
    (h : plan tools words = .begun config command own) :
    run tools home files words = conclude
      (match (opening tools home config).run files with
      | (.error outcome, after) => (.error outcome, after)
      | (.ok settings, logged) => (perform tools home settings command own).run logged) := by
  rw [run_eq]
  unfold plan at h
  split at h
  · cases h
  · rename_i options rest hparse
    split at h
    · cases h
    · rename_i hnotice
      rw [steps_run_of_parse hparse hnotice]
      split at h
      · cases h
      · cases h
      · rename_i hrequest
        obtain ⟨rfl, rfl, rfl⟩ := Plan.begun.inj h
        rw [hrequest, opening_run]
        cases configVerdict tools files options.config with
        | error verdict => rfl
        | ok _ =>
          dsimp only
          rw [answer, run_bind]
          rcases (prepareLog home).run files with ⟨outcome | _, logged⟩
          · rfl
          · dsimp only
            rw [run_bind, settingsFor_run]
            cases settingsOf tools home logged options.config with
            | error outcome => rfl
            | ok settings => rfl

end Run

end Stanza.Cli
