import Stanza.Proofs.Cli.Apart
import Stanza.Proofs.Cli.Standard

/-!
Histories of runs.

The words `init` put a configuration file with the default settings into its place. Two histories of
runs that differ only in runs of `init` leave files that differ only in what such a run makes, the
configuration file and the log, and every other run ends in the same way in both
(`Cli.init_neutral`).

The invariant between the two histories, `Cli.Follows`, looks at the files after a place for the log
is made, for every run on a command does that first: there they agree but for the configuration
file, which is the same or new. A run keeps this as long as what it names does not lead through the
configuration file (`Cli.follows_run`), and a run of `init` in one of the histories keeps it
whatever it says (`Cli.follows_init`).
-/

namespace Stanza.Cli

open Files

variable {tools : Tools} {codec : Settings.Codec} {home : String} {files others : Files}
  {words : List String}

/-! ### With a place for the log -/

/-- The files after a place for the log is made. -/
def prepared (home : String) (files : Files) : Files := ((prepareLog home).run files).2

theorem prepared_prepared (home : String) (files : Files) :
    prepared home (prepared home files) = prepared home files :=
  prepareLog_again home files

theorem prepared_of_isLogged (h : IsLogged home files) : prepared home files = files := by
  rw [prepared, prepareLog_run_of_isLogged h]

theorem extends_prepared (home : String) (files : Files) : Extends files (prepared home files) :=
  (logOnly_prepareLog home files).extends

/-- What a run shows: its exit code and what it writes. -/
def Outcome.seen (outcome : Outcome) : Nat × String := (outcome.ending.code, outcome.output)

/-- A run is its result and the files that it leaves. -/
theorem eq_of_fst_eq {α : Type} {ran : α × Files} {result : α} (h : ran.1 = result) :
    ran = (result, ran.2) := by
  subst h
  rfl

theorem prepareLog_eq_of_isLogged (h : IsLogged home (prepared home files)) :
    (prepareLog home).run files = (.ok (), prepared home files) := by
  have hok := (prepareLog_isOk home files).mpr h
  rw [prepared]
  exact eq_of_fst_eq hok

theorem seen_of_prepareLog {outcome : Outcome}
    (h : ((prepareLog home).run files).1 = .error outcome) : outcome.seen = (1, "") := by
  rw [prepareLog_run] at h
  rcases hmade : (ensureDirectory (logDirectory home)).run files with ⟨error | _, made⟩
  · rw [hmade] at h
    obtain rfl := Except.error.inj h
    rfl
  · rw [hmade] at h
    dsimp only at h
    cases htouch : ((touch (logPath home)).run made).1 with
    | error error =>
      rw [htouch] at h
      obtain rfl := Except.error.inj h
      rfl
    | ok _ =>
      rw [htouch] at h
      cases h

/-- Without a place for the log, a run breaks off. -/
theorem prepareLog_eq_of_not_isLogged (h : ¬IsLogged home (prepared home files)) :
    ∃ outcome, (prepareLog home).run files = (.error outcome, prepared home files) ∧
      outcome.seen = (1, "") := by
  rw [prepared, ← prepareLog_isOk] at h
  cases hrun : ((prepareLog home).run files).1 with
  | error outcome =>
    rw [prepared]
    exact ⟨outcome, eq_of_fst_eq hrun, seen_of_prepareLog hrun⟩
  | ok _ => exact absurd hrun h

/-! ### The invariant -/

/-- Others have gone through the same runs as some files, and in between through runs of `init`. -/
structure Follows (codec : Settings.Codec) (home : String) (files others : Files) : Prop where
  extends_files : Extends files others
  agree : AgreeBut (configPlace home) (prepared home files) (prepared home others)
  sameConfig : SameConfig codec home (prepared home files) (prepared home others)

theorem Follows.refl (codec : Settings.Codec) (home : String) (files : Files) :
    Follows codec home files files :=
  ⟨.refl files, .refl _ _, .inl rfl⟩

theorem extends_of_agree (hagree : AgreeBut (configPlace home) files others)
    (hsame : SameConfig codec home files others) : Extends files others := by
  intro place item hitem
  by_cases hplace : place = configPlace home
  · subst hplace
    rcases hsame with hsame | ⟨hnone, -⟩
    · rw [← hsame, hitem]
    · rw [hnone] at hitem
      cases hitem
  · rw [← hagree place hplace, hitem]

theorem Follows.onPrepared (h : Follows codec home files others) :
    Follows codec home (prepared home files) (prepared home others) := by
  refine ⟨extends_of_agree h.agree h.sameConfig, ?_, ?_⟩
  · rw [prepared_prepared, prepared_prepared]
    exact h.agree
  · rw [prepared_prepared, prepared_prepared]
    exact h.sameConfig

theorem follows_of_isLogged (hfiles : IsLogged home files) (hothers : IsLogged home others)
    (hagree : AgreeBut (configPlace home) files others)
    (hsame : SameConfig codec home files others) : Follows codec home files others := by
  refine ⟨extends_of_agree hagree hsame, ?_, ?_⟩
  · rwa [prepared_of_isLogged hfiles, prepared_of_isLogged hothers]
  · rwa [prepared_of_isLogged hfiles, prepared_of_isLogged hothers]

/-- A place for the log is made in both or in none. -/
theorem Follows.isLogged_iff (h : Follows codec home files others) :
    IsLogged home (prepared home files) ↔ IsLogged home (prepared home others) := by
  refine ⟨isLogged_of_extends h.onPrepared.extends_files, fun hlogged => ?_⟩
  rcases h.sameConfig with hsame | ⟨-, hdefault⟩
  · refine isLogged_of_extends ?_ hlogged
    exact @extends_of_agree codec _ _ _ h.agree.symm (.inl hsame.symm)
  · obtain ⟨hdirectory, bytes, hitem⟩ := hlogged
    have havoid : ¬IsAbove (logDirectory home) (configPlace home) := by
      intro habove
      have hfile := item?_of_isAbove hdirectory habove
      rw [hdefault] at hfile
      cases hfile
    refine ⟨?_, bytes, ?_⟩
    · rw [isDirectory_agree h.agree havoid, hdirectory]
    · rw [h.agree _ (configPlace_ne_logPath home).symm, hitem]

/-- What may be new after a run of `init`: the configuration file with the default settings, the
log, and directories above the log. -/
def MayBeNew (codec : Settings.Codec) (home : String) (place : Location) (item : Item) : Prop :=
  item = .directory ∧ IsAbove (logDirectory home) place ∨
    item = .file [] ∧ place = locate (logPath home) ∨
    item = .file (Settings.defaultBytes codec) ∧ place = configPlace home

/-- Nothing is changed but that what a run of `init` makes may be new. -/
def SetUp (codec : Settings.Codec) (home : String) (before after : Files) : Prop :=
  ∀ place, after.item? place = before.item? place ∨
    before.item? place = none ∧
      ∃ item, after.item? place = some item ∧ MayBeNew codec home place item

theorem SetUp.refl (codec : Settings.Codec) (home : String) (files : Files) :
    SetUp codec home files files :=
  fun _ => .inl rfl

theorem LogOnly.setUp (h : LogOnly home files others) : SetUp codec home files others := by
  intro place
  rcases h place with hsame | ⟨hnone, ⟨hdirectory, habove⟩ | ⟨hlog, hplace⟩⟩
  · exact .inl hsame
  · exact .inr ⟨hnone, .directory, hdirectory, .inl ⟨rfl, habove⟩⟩
  · exact .inr ⟨hnone, .file [], hlog, .inr (.inl ⟨rfl, hplace⟩)⟩

theorem Follows.setUp (h : Follows codec home files others) : SetUp codec home files others := by
  intro place
  cases hitem : files.item? place with
  | some item => exact .inl (h.extends_files _ _ hitem)
  | none =>
    cases hother : others.item? place with
    | none => exact .inl rfl
    | some item =>
      refine .inr ⟨rfl, item, rfl, ?_⟩
      have hprepared := extends_prepared home others _ _ hother
      -- where the files have the same with a place for the log, it is due to the log
      have hnew : (prepared home files).item? place = some item →
          MayBeNew codec home place item := by
        intro hsame
        rcases (logOnly_prepareLog home files).setUp place with hold | ⟨-, item', hitem', hnew⟩
        · rw [← prepared, hsame, hitem] at hold
          cases hold
        · rw [← prepared, hsame] at hitem'
          obtain rfl := Option.some.inj hitem'
          exact hnew
      by_cases hplace : place = configPlace home
      · subst hplace
        rcases h.sameConfig with hsame | ⟨-, hdefault⟩
        · exact hnew (hsame.trans hprepared)
        · rw [hprepared] at hdefault
          exact .inr (.inr ⟨Option.some.inj hdefault, rfl⟩)
      · exact hnew ((h.agree place hplace).trans hprepared)

/-! ### Runs of `init` -/

/-- Whether words ask for the configuration file to be made. -/
def asksInit (tools : Tools) (words : List String) : Bool :=
  match plan tools words with
  | .begun _ .init _ => true
  | _ => false

/-- Where the log is in its place, `init` puts the configuration file into its place unless
something is there, and ends well if its words are right. -/
theorem initialise_run_of_isLogged (line : CommandLine) (h : IsLogged home files) :
    (initialise tools home line).run files =
      if !line.words.isEmpty then (.error .misused, files)
      else (.ok (initialised tools home),
        match files.item? (configPlace home) with
        | some _ => files
        | none => files.put (configPlace home) (.file (Settings.defaultBytes tools.codec))) := by
  have hown := ensureDirectory_of_isDirectory (isDirectory_ownPath h.1)
  have hplace : files.place (.ofText (configName home)) = .ok (configPlace home) :=
    place_ofText (placeOfName_configName h.1)
  rw [initialise_run]
  split
  · rfl
  · rw [← ownPath, hown]
    dsimp only
    rw [exists?, itemOfName_configName h.1]
    cases hitem : files.item? (configPlace home) with
    | some item => rfl
    | none =>
      dsimp only
      rw [if_neg (by decide), write_run, hplace]
      dsimp only
      rw [hitem]

/-- A run of `init` changes nothing, or makes a place for the log, and where nothing is at the place
of the configuration file it may put one with the default settings there. -/
theorem run_init_cases (tools : Tools) (home : String) (files : Files)
    (hinit : asksInit tools words) :
    (run tools home files words).2 = files ∨ (run tools home files words).2 = prepared home files ∨
      IsLogged home (prepared home files) ∧
        (prepared home files).item? (configPlace home) = none ∧
        (run tools home files words).2 = (prepared home files).put (configPlace home)
          (.file (Settings.defaultBytes tools.codec)) := by
  unfold asksInit at hinit
  split at hinit
  · rename_i config own hplan
    rw [run_of_begun hplan, opening_run]
    cases configVerdict tools files config with
    | error outcome => exact .inl rfl
    | ok _ =>
      dsimp only
      by_cases hlogged : IsLogged home (prepared home files)
      · rw [prepareLog_eq_of_isLogged hlogged]
        dsimp only
        cases settingsOf tools home (prepared home files) config with
        | error outcome => exact .inr (.inl (conclude_mk_snd _ _))
        | ok settings =>
          dsimp only
          rw [perform_run]
          cases tools.parser.line .init own with
          | error error => exact .inr (.inl (conclude_mk_snd _ _))
          | ok line =>
            dsimp only
            split
            · exact .inr (.inl (conclude_mk_snd _ _))
            · rw [commandBody, initialise_run_of_isLogged line hlogged]
              split
              · exact .inr (.inl (conclude_mk_snd _ _))
              · rw [conclude_mk_snd]
                cases hitem : (prepared home files).item? (configPlace home) with
                | some item => exact .inr (.inl rfl)
                | none => exact .inr (.inr ⟨hlogged, rfl, rfl⟩)
      · -- the run breaks off before `init` looks at the configuration file
        obtain ⟨outcome, hprepare, -⟩ := prepareLog_eq_of_not_isLogged hlogged
        rw [hprepare]
        exact .inr (.inl (conclude_mk_snd _ _))
  · cases hinit

/-- A run of `init` in between keeps the invariant, whatever it says. -/
theorem follows_init (h : Follows tools.codec home files others) (hinit : asksInit tools words) :
    Follows tools.codec home files (run tools home others words).2 := by
  rcases run_init_cases tools home others hinit with
    hran | hran | ⟨hlogged, hnone, hran⟩
  · rwa [hran]
  · rw [hran]
    refine ⟨h.extends_files.trans (extends_prepared home others), ?_, ?_⟩
    · rw [prepared_prepared]
      exact h.agree
    · rw [prepared_prepared]
      exact h.sameConfig
  · have hextends := extends_put (.file (Settings.defaultBytes tools.codec)) hnone
    have hfree : (prepared home others).item? (configPlace home) ≠ some .directory := by
      simp [hnone]
    rw [hran]
    refine ⟨(h.extends_files.trans (extends_prepared home others)).trans hextends, ?_, ?_⟩
    · rw [prepared_of_isLogged (isLogged_of_extends hextends hlogged)]
      intro place hplace
      rw [item?_put _ _ hfree, if_neg hplace]
      exact h.agree place hplace
    · rw [prepared_of_isLogged (isLogged_of_extends hextends hlogged)]
      refine .inr ⟨?_, (item?_put _ _ hfree).trans (if_pos rfl)⟩
      rcases h.sameConfig with hsame | ⟨hnew, -⟩
      · rw [hsame, hnone]
      · exact hnew

/-! ### Runs that avoid the configuration file -/

/-- The configuration file that words name. -/
def Plan.config? : Plan → Option String
  | .answered _ => none
  | .checked config _ => config
  | .begun config _ _ => config

/-- What a run names does not lead through the configuration file that is used unless another is
given; and a configuration file that it does name is not a part of what is made for the log. -/
structure Apart (tools : Tools) (home : String) (files : Files) (words : List String) : Prop where
  config : ∀ name, (plan tools words).config? = some name → Avoids home name
  anchored : ∀ name bytes, (plan tools words).config? = some name →
    (prepared home files).itemOfName name = .ok (.file bytes) →
    ∃ bytes', files.itemOfName name = .ok (.file bytes')
  arguments : ∀ config command own line, plan tools words = .begun config command own →
    tools.parser.line command own = .ok line →
    (∀ word ∈ line.words, Avoids home word) ∧
      ∀ directory, line.out = some directory → Avoids home directory
  configured : ∀ config command own settings logged directory,
    plan tools words = .begun config command own →
    (opening tools home config).run files = (.ok settings, logged) →
    settings.outputDirectory = .text directory → Avoids home directory

/-- Whether there is the configuration file that is named does not depend on runs of `init`. -/
theorem configVerdict_follows (hparser : tools.parser.IsLawful)
    (h : Follows tools.codec home files others) (hapart : Apart tools home files words) :
    configVerdict tools files (plan tools words).config? =
      configVerdict tools others (plan tools words).config? := by
  cases hconfig : (plan tools words).config? with
  | none => rfl
  | some name =>
    refine fileVerdict_congr hparser ⟨?_, ?_⟩
    · rintro ⟨bytes, hfile⟩
      exact ⟨bytes, itemOfName_of_extends h.extends_files hfile⟩
    · rintro ⟨bytes, hfile⟩
      have hprepared := itemOfName_of_extends (extends_prepared home others) hfile
      rw [← itemOfName_agree h.agree (hapart.config name hconfig)] at hprepared
      exact hapart.anchored name bytes hconfig hprepared

/-! ### Commands -/

section Command

variable {settings : Settings} {command : CommandName}

/-- A command other than `init` shows the same in both and keeps the invariant. -/
theorem follows_perform (settings : Settings) (own : List String) (hcommand : command ≠ .init)
    (hfiles : IsLogged home files) (hothers : IsLogged home others)
    (hagree : AgreeBut (configPlace home) files others)
    (hsame : SameConfig tools.codec home files others)
    (hwords : ∀ line, tools.parser.line command own = .ok line →
      ∀ word ∈ line.words, Avoids home word)
    (htarget : ∀ line directory, tools.parser.line command own = .ok line →
      directoryVerdict line settings = .ok directory → Avoids home directory) :
    ((perform tools home settings command own).run files).1 =
        ((perform tools home settings command own).run others).1 ∧
      Follows tools.codec home ((perform tools home settings command own).run files).2
        ((perform tools home settings command own).run others).2 := by
  have hfollows := follows_of_isLogged hfiles hothers hagree hsame
  rw [perform_run, perform_run]
  cases hline : tools.parser.line command own with
  | error error => exact ⟨rfl, hfollows⟩
  | ok line =>
    dsimp only
    split
    · exact ⟨rfl, hfollows⟩
    · have halike : Files.Alike (configPlace home) (commandBody tools home settings command line) :=
        alike_commandBody hcommand (hwords line hline) fun directory =>
          htarget line directory hline
      obtain ⟨hout, hafter, hstays⟩ := halike files others hagree
      obtain ⟨-, -, hstays'⟩ := halike others files hagree.symm
      refine ⟨hout, follows_of_isLogged (isLogged_commandBody hcommand hfiles)
        (isLogged_commandBody hcommand hothers) hafter ?_⟩
      rcases hsame with hsame | ⟨hnone, hdefault⟩
      · exact .inl (by rw [hstays, hstays', hsame])
      · exact .inr ⟨by rw [hstays, hnone], by rw [hstays', hdefault]⟩

end Command

/-! ### Histories -/

/-- The directory that a line writes to is given by the line or by the settings. -/
theorem directoryVerdict_eq_ok {line : CommandLine} {settings : Settings} {directory : String}
    (h : directoryVerdict line settings = .ok directory) :
    line.out = some directory ∨ settings.outputDirectory = .text directory := by
  unfold directoryVerdict at h
  split at h
  · rename_i given hgiven
    obtain rfl := Except.ok.inj h
    exact .inl (Option.filter_eq_some_iff.mp hgiven).1
  · rename_i given _ hgiven
    obtain rfl := Except.ok.inj h
    exact .inr hgiven
  · cases h

/-- A run on a command begins in the same way in both: with the same settings and the log in its
place, or it ends at once and shows the same. -/
theorem opening_follows {config : Option String} (hcodec : tools.codec.IsLawful)
    (h : Follows tools.codec home files others)
    (hverdict : configVerdict tools files config = configVerdict tools others config)
    (havoid : ∀ name, config = some name → Avoids home name) :
    (∃ settings, (opening tools home config).run files = (.ok settings, prepared home files) ∧
      (opening tools home config).run others = (.ok settings, prepared home others) ∧
      IsLogged home (prepared home files)) ∨
    ∃ outcome outcome' after after',
      (opening tools home config).run files = (.error outcome, after) ∧
      (opening tools home config).run others = (.error outcome', after') ∧
      outcome.seen = outcome'.seen ∧ Follows tools.codec home after after' := by
  rw [opening_run, opening_run, ← hverdict]
  cases configVerdict tools files config with
  | error outcome => exact .inr ⟨outcome, outcome, files, others, rfl, rfl, rfl, h⟩
  | ok _ =>
    by_cases hlogged : IsLogged home (prepared home files)
    · have hlogged' := h.isLogged_iff.mp hlogged
      rw [prepareLog_eq_of_isLogged hlogged, prepareLog_eq_of_isLogged hlogged']
      dsimp only
      -- the configuration file is the same, or it is new and says what is used without it
      rw [← settingsOf_agree hcodec hlogged.1 hlogged'.1 h.agree h.sameConfig havoid]
      cases settingsOf tools home (prepared home files) config with
      | error outcome => exact .inr ⟨outcome, outcome, _, _, rfl, rfl, rfl, h.onPrepared⟩
      | ok settings => exact .inl ⟨settings, rfl, rfl, hlogged⟩
    · obtain ⟨outcome, hprepare, hseen⟩ := prepareLog_eq_of_not_isLogged hlogged
      obtain ⟨outcome', hprepare', hseen'⟩ :=
        prepareLog_eq_of_not_isLogged fun hlogged' => hlogged (h.isLogged_iff.mpr hlogged')
      rw [hprepare, hprepare']
      exact .inr ⟨outcome, outcome', _, _, rfl, rfl, hseen.trans hseen'.symm, h.onPrepared⟩

/-- **One run.** A run that does not ask for `init` shows the same in both histories and keeps the
invariant, if what it names avoids the configuration file. -/
theorem follows_run (hcodec : tools.codec.IsLawful) (hparser : tools.parser.IsLawful)
    (h : Follows tools.codec home files others) (hinit : asksInit tools words = false)
    (hapart : Apart tools home files words) :
    (run tools home files words).1.seen = (run tools home others words).1.seen ∧
      Follows tools.codec home (run tools home files words).2 (run tools home others words).2 := by
  have hverdict := configVerdict_follows hparser h hapart
  cases hplan : plan tools words with
  | answered outcome =>
    rw [run_of_answered hplan, run_of_answered hplan]
    exact ⟨rfl, h⟩
  | checked config outcome =>
    rw [run_of_checked hplan, run_of_checked hplan]
    rw [hplan] at hverdict
    dsimp only [Plan.config?] at hverdict
    rw [← hverdict]
    cases configVerdict tools files config with
    | error verdict => exact ⟨rfl, h⟩
    | ok _ => exact ⟨rfl, h⟩
  | begun config command own =>
    have hcommand : command ≠ .init := by
      rintro rfl
      simp [asksInit, hplan] at hinit
    rw [hplan] at hverdict
    dsimp only [Plan.config?] at hverdict
    have havoid : ∀ name, config = some name → Avoids home name := by
      intro name hname
      exact hapart.config name (by rw [hplan]; exact hname)
    rw [run_of_begun hplan, run_of_begun hplan]
    rcases opening_follows hcodec h hverdict havoid with ⟨settings, hopening, hopening', hlogged⟩ |
      ⟨outcome, outcome', after, after', hopening, hopening', hseen, hafter⟩
    · have hperform := follows_perform settings own hcommand hlogged
        (h.isLogged_iff.mp hlogged) h.agree h.sameConfig
        (fun line hline => (hapart.arguments config command own line hplan hline).1)
        fun line directory hline hdirectory => by
          rcases directoryVerdict_eq_ok hdirectory with hgiven | hgiven
          · exact (hapart.arguments config command own line hplan hline).2 directory hgiven
          · exact hapart.configured config command own settings _ directory hplan hopening hgiven
      rw [hopening, hopening', conclude_snd, conclude_snd]
      exact ⟨congrArg Outcome.seen (conclude_fst_congr hperform.1), hperform.2⟩
    · rw [hopening, hopening']
      exact ⟨hseen, hafter⟩

/-- The words and outcomes of some runs, one after another, and the files that they leave. -/
def runAll (tools : Tools) (home : String) :
    Files → List (List String) → List (List String × Outcome) × Files
  | files, [] => ([], files)
  | files, words :: rest =>
      let ran := run tools home files words
      let others := runAll tools home ran.2 rest
      ((words, ran.1) :: others.1, others.2)

/-- A history without the runs of `init`. -/
def withoutInit (tools : Tools) (history : List (List String)) : List (List String) :=
  history.filter fun words => !asksInit tools words

/-- What is shown by the runs of a history that do not ask for `init`. -/
def seenBesidesInit (tools : Tools) (ran : List (List String × Outcome)) : List (Nat × String) :=
  (ran.filter fun entry => !asksInit tools entry.1).map fun entry => entry.2.seen

/-- All runs of a history are apart from the configuration file. -/
def AllApart (tools : Tools) (home : String) : Files → List (List String) → Prop
  | _, [] => True
  | files, words :: rest =>
      Apart tools home files words ∧ AllApart tools home (run tools home files words).2 rest

theorem follows_runAll (hcodec : tools.codec.IsLawful) (hparser : tools.parser.IsLawful)
    {history : List (List String)} (h : Follows tools.codec home files others)
    (hapart : AllApart tools home files (withoutInit tools history)) :
    seenBesidesInit tools (runAll tools home others history).1 =
        (runAll tools home files (withoutInit tools history)).1.map
          (fun entry => entry.2.seen) ∧
      Follows tools.codec home (runAll tools home files (withoutInit tools history)).2
        (runAll tools home others history).2 := by
  unfold withoutInit at *
  induction history generalizing files others with
  | nil => exact ⟨rfl, h⟩
  | cons words rest ih =>
    cases hinit : asksInit tools words with
    | true =>
      -- only the history with the runs of `init` goes on, the other one waits
      rw [List.filter_cons_of_neg (by simp [hinit])] at hapart ⊢
      obtain ⟨hseen, hafter⟩ := ih (follows_init h hinit) hapart
      refine ⟨?_, hafter⟩
      rw [runAll, seenBesidesInit, List.filter_cons_of_neg (by simp [hinit])]
      exact hseen
    | false =>
      rw [List.filter_cons_of_pos (by simp [hinit])] at hapart ⊢
      obtain ⟨hsame, hfollows⟩ := follows_run hcodec hparser h hinit hapart.1
      obtain ⟨hseen, hafter⟩ := ih hfollows hapart.2
      refine ⟨?_, hafter⟩
      rw [runAll, runAll, seenBesidesInit, List.filter_cons_of_pos (by simp [hinit]),
        List.map_cons, List.map_cons, hsame]
      exact congrArg _ hseen

/-- A run of `init` changes nothing but that the log and the configuration file may be new. -/
theorem setUp_run_init (hinit : asksInit tools words) :
    SetUp tools.codec home files (run tools home files words).2 := by
  have hprepared : SetUp tools.codec home files (prepared home files) :=
    (logOnly_prepareLog home files).setUp
  rcases run_init_cases tools home files hinit with
    hran | hran | ⟨-, hnone, hran⟩
  · rw [hran]
    exact .refl _ home files
  · rwa [hran]
  · rw [hran]
    intro place
    rw [item?_put _ _ (by simp [hnone])]
    split
    · rename_i hplace
      subst hplace
      refine .inr ⟨?_, .file (Settings.defaultBytes tools.codec), rfl, .inr (.inr ⟨rfl, rfl⟩)⟩
      rcases hprepared (configPlace home) with hsame | ⟨hmissing, -⟩
      · rw [← hsame, hnone]
      · exact hmissing
    · exact hprepared place

/-- A beginning that ends a run does not end it well. -/
theorem code_of_opening {config : Option String} {outcome : Outcome} {after : Files}
    (h : (opening tools home config).run files = (.error outcome, after)) :
    outcome.ending.code ≠ 0 := by
  have hverdict (name : String) {found : Outcome}
      (hname : fileVerdict tools files name = .error found) : found.ending.code ≠ 0 := by
    unfold fileVerdict at hname
    split at hname <;> cases hname <;> simp [Outcome.misused, Outcome.brokenOff, Ending.code]
  rw [opening_run] at h
  cases hconfig : configVerdict tools files config with
  | error found =>
    rw [hconfig] at h
    obtain rfl := Except.error.inj (Prod.mk.inj h).1
    cases config with
    | none => cases hconfig
    | some name => exact hverdict name hconfig
  | ok _ =>
    rw [hconfig] at h
    dsimp only at h
    rcases hprepare : (prepareLog home).run files with ⟨found | _, logged⟩
    · rw [hprepare] at h
      obtain rfl := Except.error.inj (Prod.mk.inj h).1
      have hseen := congrArg Prod.fst (seen_of_prepareLog (congrArg Prod.fst hprepare))
      exact fun hzero => absurd (hzero.symm.trans hseen) (by decide)
    · rw [hprepare] at h
      have hload (name : String) : settingsIn tools logged name = .error outcome →
          outcome.ending.code ≠ 0 := by
        intro herror
        obtain ⟨error, -, rfl⟩ := mapError_eq_error_iff.mp herror
        rw [code_ofSettingsError]
        decide
      have hsettings : settingsOf tools home logged config = .error outcome := (Prod.mk.inj h).1
      cases config with
      | some name => exact hload name hsettings
      | none =>
        unfold settingsOf at hsettings
        dsimp only at hsettings
        split at hsettings
        · exact hload _ hsettings
        · cases hsettings

/-- The log is in its place once a run has begun well. -/
theorem isLogged_of_opening {config : Option String} {settings : Settings} {logged : Files}
    (h : (opening tools home config).run files = (.ok settings, logged)) :
    IsLogged home logged := by
  have hends := prepareLog_isOk home files
  rw [opening_run] at h
  split at h
  · cases h
  · rcases hprepare : (prepareLog home).run files with ⟨found | _, made⟩
    · rw [hprepare] at h
      cases h
    · rw [hprepare] at h hends
      obtain rfl := (Prod.mk.inj h).2
      exact hends.mp rfl

/-- After a run of `init` that ends well something is at the place of the configuration file. -/
theorem isSome_of_init {config : Option String} {line : CommandLine}
    (hasks : Asks tools words config .init line)
    (hcode : (run tools home files words).1.ending.code = 0) :
    ((run tools home files words).2.item? (configPlace home)).isSome := by
  rcases hopening : (opening tools home config).run files with ⟨outcome | settings, logged⟩
  · obtain ⟨own, hplan, -⟩ := hasks
    rw [run_of_begun hplan, hopening] at hcode
    exact absurd hcode (code_of_opening hopening)
  · have hrun := run_of_asks hasks hopening
    rw [commandBody, initialise_run_of_isLogged line (isLogged_of_opening hopening)] at hrun
    split at hrun
    · rw [hrun] at hcode
      cases hcode
    · rw [hrun, conclude_mk_snd]
      cases hitem : logged.item? (configPlace home) with
      | some item => simp [hitem]
      | none =>
        dsimp only
        rw [item?_put _ _ (by simp [hitem]), if_pos rfl]
        rfl

/-- **`init` is neutral.** Let the runs of a history that do not ask for `init` name nothing that
leads through the configuration file, nor a configuration file that is made for the log. Then they
show the same in the history without the runs of `init`, and what is left of the files differs only
in what a run of `init` makes, which is new and never replaces anything. A run of `init` that ends
well leaves something at the place of the configuration file. And the settings that are read from
the file that it makes are those that are used where there is none. -/
theorem init_neutral (hcodec : tools.codec.IsLawful) (hparser : tools.parser.IsLawful)
    {history : List (List String)}
    (apart : AllApart tools home files (withoutInit tools history)) :
    seenBesidesInit tools (runAll tools home files history).1 =
        (runAll tools home files (withoutInit tools history)).1.map
          (fun entry => entry.2.seen) ∧
      SetUp tools.codec home (runAll tools home files (withoutInit tools history)).2
        (runAll tools home files history).2 ∧
      (∀ files words, asksInit tools words →
        SetUp tools.codec home files (run tools home files words).2) ∧
      (∀ files words config line, Asks tools words config .init line →
        (run tools home files words).1.ending.code = 0 →
        ((run tools home files words).2.item? (configPlace home)).isSome) ∧
      ∀ files name, files.readName name = .ok (Settings.defaultBytes tools.codec) →
        Settings.load tools.codec files name = .ok .standard := by
  obtain ⟨hseen, hfollows⟩ := follows_runAll hcodec hparser (.refl _ home files) apart
  exact ⟨hseen, hfollows.setUp, fun _ _ hinit => setUp_run_init hinit,
    fun _ _ _ _ hasks hcode => isSome_of_init hasks hcode,
    fun _ _ hread => load_defaultBytes hcodec hread⟩

/-- A run that names no configuration file is apart if its words and directories are. -/
theorem apart_of_plan {command : CommandName} {own : List String} {line : CommandLine}
    {settings : Settings} {logged : Files} {directory : String}
    (hplan : plan tools words = .begun none command own)
    (hline : tools.parser.line command own = .ok line)
    (hwords : ∀ word ∈ line.words, Avoids home word)
    (hout : ∀ given, line.out = some given → Avoids home given)
    (hopening : (opening tools home none).run files = (.ok settings, logged))
    (hnamed : settings.outputDirectory = .text directory) (hdirectory : Avoids home directory) :
    Apart tools home files words := by
  constructor
  · intro name hname
    rw [hplan] at hname
    cases hname
  · intro name bytes hname
    rw [hplan] at hname
    cases hname
  · intro config command' own' line' hplan' hline'
    obtain ⟨rfl, rfl, rfl⟩ := Plan.begun.inj (hplan.symm.trans hplan')
    obtain rfl := Except.ok.inj (hline.symm.trans hline')
    exact ⟨hwords, hout⟩
  · intro config command' own' settings' logged' directory' hplan' hopening' hnamed'
    obtain ⟨rfl, rfl, rfl⟩ := Plan.begun.inj (hplan.symm.trans hplan')
    obtain rfl := Except.ok.inj (Prod.mk.inj (hopening.symm.trans hopening')).1
    obtain rfl := Value.text.inj (hnamed.symm.trans hnamed')
    exact hdirectory

/-- Files with a source, and a configuration file without settings. -/
def sourceFiles : Files :=
  ⟨[(["home"], .directory), (["home", "c.yaml"], .file []),
    (["a.json"], .file (Text.encode "\x7b\"block\": \"terraform\"\x7d".toList))]⟩

/-- Words that print the document of the source. -/
def sourceWords : List String := ["compile", "a.json", "--stdout"]

theorem opening_sourceFiles :
    (opening .standard "home" none).run sourceFiles =
      (.ok .standard, ((opening .standard "home" none).run sourceFiles).2) := by rfl

theorem plan_sourceWords :
    plan .standard sourceWords = .begun none .compile ["a.json", "--stdout"] := by rfl

/-- Compiling shows the same with runs of `init` before and after it. -/
theorem init_neutral_sourceWords :
    seenBesidesInit .standard
          (runAll .standard "home" sourceFiles [["init"], sourceWords, ["init"]]).1 =
        (runAll .standard "home" sourceFiles [sourceWords]).1.map (fun entry => entry.2.seen) ∧
      SetUp Tools.standard.codec "home" (runAll .standard "home" sourceFiles [sourceWords]).2
        (runAll .standard "home" sourceFiles [["init"], sourceWords, ["init"]]).2 := by
  have hfilter : withoutInit .standard [["init"], sourceWords, ["init"]] = [sourceWords] := by
    decide +kernel
  have hapart : Apart .standard "home" sourceFiles sourceWords :=
    apart_of_plan plan_sourceWords rfl (by decide +kernel) (fun _ hout => nomatch hout)
      opening_sourceFiles rfl (by decide +kernel)
  obtain ⟨hseen, hsetUp, -⟩ := @init_neutral .standard "home" sourceFiles
    Settings.Codec.standard_isLawful Parser.standard_isLawful [["init"], sourceWords, ["init"]]
    (by rw [hfilter]; exact ⟨hapart, trivial⟩)
  rw [hfilter] at hseen hsetUp
  exact ⟨hseen, hsetUp⟩

/-- Words that do the same with the configuration file, which they name by way of a directory that
is made for the log. -/
def windingWords : List String := "--config" :: "home/.hclscript/../c.yaml" :: sourceWords

/-- A run of `init` changes whether a configuration file is found that is named by way of the
directory of the log, and it leaves a log where without it there would be none. -/
theorem init_changes_windingWords :
    (∀ word ∈ windingWords, Avoids "home" word) ∧ Avoids "home" "./IaC" ∧
      asksInit .standard ["init"] ∧
      (run .standard "home" sourceFiles windingWords).1.seen = (2, "") ∧
      (run .standard "home" (run .standard "home" sourceFiles ["init"]).2 windingWords).1.seen =
        (0, "terraform \x7b\n\x7d\n") ∧
      (runAll .standard "home" sourceFiles []).2.item? (locate (logPath "home")) = none ∧
      (runAll .standard "home" sourceFiles [["init"]]).2.item? (locate (logPath "home")) =
        some (.file []) ∧
      locate (logPath "home") ≠ configPlace "home" := by
  decide +kernel

end Stanza.Cli
