import Stanza.Proofs.Cli.Commands
import Stanza.Proofs.Cli.Home

/-!
Commands that have nothing to do with the configuration file.

Compiling and checking look at the source that they are given, and write to the directory that they
are given. Where neither leads through the configuration file that is used unless another is given,
these commands end in the same way whatever is there, and leave it as it was
(`Cli.alike_commandBody`). They never take the log away (`Cli.isLogged_commandBody`).
-/

namespace Stanza.Cli

open Files

variable {tools : Tools} {home : String} {files others : Files}

/-! ### Whether there is a file -/

theorem follow_ne_null (files : Files) (here : Location) (parts : List String) :
    files.follow here parts ≠ .error .nullCharacter := by
  induction parts generalizing here with
  | nil =>
    intro h
    cases h
  | cons part rest ih =>
    rw [follow_cons]
    split
    · simp
    · simp
    · split
      · simp
      · exact ih _

/-- A name leads nowhere for a null character only if it has one. -/
theorem itemOfName_eq_null_iff {name : String} :
    files.itemOfName name = .error .nullCharacter ↔ hasNull name := by
  rw [itemOfName, placeOfName_eq]
  by_cases hnull : hasNull name
  · simp [hnull, bind, Except.bind]
  · simp only [hnull, Bool.false_eq_true, if_false, iff_false]
    split
    · simp [bind, Except.bind]
    · have hfollow := follow_ne_null files
        (if (FilePath.ofText name).absolute then root else []) (nameParts name)
      cases hplace : files.follow (if (FilePath.ofText name).absolute then root else [])
          (nameParts name) with
      | error error =>
        intro h
        obtain rfl := Except.error.inj h
        exact hfollow hplace
      | ok place =>
        cases hitem : files.item? place with
        | none => simp [bind, Except.bind, hitem]
        | some item => simp [bind, Except.bind, pure, Except.pure, hitem]

/-- Where there is no file of a name, only the name tells how a run ends for it. -/
theorem fileVerdict_of_missing {name : String} (hparser : tools.parser.IsLawful)
    (h : ¬∃ bytes, files.itemOfName name = .ok (.file bytes)) :
    fileVerdict tools files name =
      if hasNull name then .error (.brokenOff (.files .nullCharacter)) else .error .misused := by
  unfold fileVerdict
  cases hitem : files.itemOfName name with
  | ok item =>
    have hnull : ¬hasNull name := fun hnull => by
      cases hitem.symm.trans (itemOfName_eq_null_iff.mpr hnull)
    rw [if_neg hnull]
    cases item with
    | file bytes => exact absurd ⟨bytes, hitem⟩ h
    | directory => rw [hparser.directory]
  | error error =>
    by_cases herror : error = .nullCharacter
    · subst herror
      rw [hparser.null, if_pos (itemOfName_eq_null_iff.mp hitem)]
    · have hnull : ¬hasNull name := fun hnull =>
        herror (Except.error.inj (hitem.symm.trans (itemOfName_eq_null_iff.mpr hnull)))
      rw [hparser.missing error herror, if_neg hnull]

theorem fileVerdict_congr {name : String} (hparser : tools.parser.IsLawful)
    (h : (∃ bytes, files.itemOfName name = .ok (.file bytes)) ↔
      ∃ bytes, others.itemOfName name = .ok (.file bytes)) :
    fileVerdict tools files name = fileVerdict tools others name := by
  by_cases hfile : ∃ bytes, files.itemOfName name = .ok (.file bytes)
  · rw [(fileVerdict_eq_ok_iff hparser).mpr hfile,
      (fileVerdict_eq_ok_iff hparser).mpr (h.mp hfile)]
  · rw [fileVerdict_of_missing hparser hfile,
      fileVerdict_of_missing hparser fun hother => hfile (h.mpr hother)]

/-! ### Commands that avoid the configuration file -/

section Command

variable {settings : Settings} {line : CommandLine} {command : CommandName}

theorem mem_words_of_onlyWord {source : String} (h : line.onlyWord = .ok source) :
    source ∈ line.words := by
  unfold CommandLine.onlyWord at h
  split at h
  · rename_i word hwords
    obtain rfl := Except.ok.inj h
    rw [hwords]
    exact List.mem_singleton_self _
  · cases h

theorem sourceVerdict_agree (hagree : AgreeBut (configPlace home) files others)
    (hwords : ∀ word ∈ line.words, Avoids home word) :
    sourceVerdict tools files line = sourceVerdict tools others line := by
  unfold sourceVerdict
  cases honly : line.onlyWord with
  | error error => rfl
  | ok source =>
    have hsource := hwords source (mem_words_of_onlyWord honly)
    dsimp only
    rw [fileVerdict, fileVerdict, itemOfName_agree hagree hsource]

theorem mem_words_of_sourceVerdict {source : String}
    (h : sourceVerdict tools files line = .ok source) : source ∈ line.words := by
  unfold sourceVerdict at h
  cases honly : line.onlyWord with
  | error error =>
    rw [honly] at h
    cases h
  | ok word =>
    rw [honly] at h
    dsimp only at h
    cases hverdict : fileVerdict tools files word with
    | error outcome =>
      rw [hverdict] at h
      cases h
    | ok _ =>
      rw [hverdict] at h
      obtain rfl := Except.ok.inj h
      exact mem_words_of_onlyWord honly

theorem compiled_agree (hagree : AgreeBut (configPlace home) files others)
    (hwords : ∀ word ∈ line.words, Avoids home word) :
    compiled tools files settings line = compiled tools others settings line := by
  unfold compiled
  rw [← sourceVerdict_agree hagree hwords]
  cases hsource : sourceVerdict tools files line with
  | error outcome => rfl
  | ok source =>
    have havoid := hwords source (mem_words_of_sourceVerdict hsource)
    dsimp only
    rw [text_eq_of_read _ _ _ (read_agree hagree havoid)]

theorem checked_agree (hagree : AgreeBut (configPlace home) files others)
    (hwords : ∀ word ∈ line.words, Avoids home word) :
    checked tools files settings line = checked tools others settings line := by
  unfold checked
  rw [← sourceVerdict_agree hagree hwords]
  cases hsource : sourceVerdict tools files line with
  | error outcome => rfl
  | ok source =>
    have havoid := hwords source (mem_words_of_sourceVerdict hsource)
    dsimp only
    rw [load_eq_of_read _ (read_agree hagree havoid)]

theorem outputPath_eq (directory : String) :
    Convert.outputPath directory Convert.defaultFile =
      ⟨(FilePath.ofText directory).absolute, (FilePath.ofText directory).parts ++ ["main.tf"]⟩ := by
  have hfile : FilePath.ofText Convert.defaultFile = ⟨false, ["main.tf"]⟩ := by decide
  rw [Convert.outputPath, hfile]
  rfl

/-- A document in a directory that avoids the configuration file avoids it as well. -/
theorem avoids_outputPath {directory : String} (h : Avoids home directory) :
    ¬IsAbove (Convert.outputPath directory Convert.defaultFile) (configPlace home) := by
  rw [outputPath_eq]
  rintro ⟨front, hfront, hplace⟩
  rcases List.prefix_concat_iff.mp hfront with rfl | hfront
  · rw [configPlace_eq, locate_concat _ _ _ (by decide)] at hplace
    exact absurd (List.append_inj_right' hplace rfl) (by decide)
  · exact h ⟨front, hfront, hplace⟩

theorem alike_compileSource (hwords : ∀ word ∈ line.words, Avoids home word)
    (htarget : ∀ directory, directoryVerdict line settings = .ok directory →
      Avoids home directory) :
    Files.Alike (configPlace home) (compileSource tools settings line) := by
  intro files others hagree
  rw [compileSource_run, compileSource_run, ← compiled_agree hagree hwords]
  cases compiled tools files settings line with
  | error outcome => exact ⟨rfl, hagree, rfl⟩
  | ok text =>
    dsimp only
    split
    · exact ⟨rfl, hagree, rfl⟩
    · cases hdirectory : directoryVerdict line settings with
      | error outcome => exact ⟨rfl, hagree, rfl⟩
      | ok directory =>
        have havoid := avoids_outputPath (htarget directory hdirectory)
        obtain ⟨result, after, after', hran, hran', hagree', hstays⟩ :=
          (alike_writeBelow havoid (Text.encode text)).exists_run hagree
        dsimp only [Convert.writeDocument]
        rw [hran, hran']
        cases result with
        | error error => exact ⟨rfl, hagree', hstays⟩
        | ok _ => exact ⟨rfl, hagree', hstays⟩

theorem alike_checkSource (hwords : ∀ word ∈ line.words, Avoids home word) :
    Files.Alike (configPlace home) (checkSource tools settings line) := by
  intro files others hagree
  rw [checkSource_run, checkSource_run, ← checked_agree hagree hwords]
  exact ⟨rfl, hagree, rfl⟩

theorem isLogged_of_extends (hextends : Extends files others) (h : IsLogged home files) :
    IsLogged home others := by
  obtain ⟨hdirectory, bytes, hitem⟩ := h
  exact ⟨isDirectory_of_extends hextends hdirectory, bytes, hextends _ _ hitem⟩

/-- Writing a document leaves the log where it is. -/
theorem isLogged_writeDocument (directory : String) (text : List Char)
    (h : IsLogged home files) :
    IsLogged home ((Convert.writeDocument
      (Convert.outputPath directory Convert.defaultFile) text).run files).2 := by
  rcases writeBelow_run (Convert.outputPath directory Convert.defaultFile) (Text.encode text)
    files with ⟨made, hmade, hnew, hrun⟩ | ⟨error, after, hrun, hafter⟩
  · rw [Convert.writeDocument, hrun]
    obtain ⟨hdirectory, bytes, hitem⟩ := isLogged_of_extends hmade.extends h
    -- the document is new or replaces a file, so it is no directory above the log
    have habove : ¬IsAbove (logDirectory home)
        (locate (Convert.outputPath directory Convert.defaultFile)) :=
      fun habove => hnew (item?_of_isAbove hdirectory habove)
    have hplace : locate (logPath home) ≠
        locate (Convert.outputPath directory Convert.defaultFile) := by
      rw [locate_logPath, outputPath_eq, locate_concat _ _ _ (by decide)]
      intro heq
      exact absurd (List.append_inj_right' heq rfl) (by decide)
    refine ⟨?_, bytes, ?_⟩
    · rw [← isDirectory_agree (agreeBut_put (.file (Text.encode text)) hnew) habove, hdirectory]
    · exact ((item?_put _ _ hnew).trans (if_neg hplace)).trans hitem
  · rw [Convert.writeDocument, hrun]
    exact isLogged_of_extends hafter.extends h

/-- Commands other than `init` leave the log where it is. -/
theorem isLogged_commandBody (hcommand : command ≠ .init) (h : IsLogged home files) :
    IsLogged home ((commandBody tools home settings command line).run files).2 := by
  cases command with
  | init => exact absurd rfl hcommand
  | check =>
    rw [commandBody, checkSource_run]
    exact h
  | compile =>
    rw [commandBody, compileSource_run]
    cases compiled tools files settings line with
    | error outcome => exact h
    | ok text =>
      dsimp only
      split
      · exact h
      · cases directoryVerdict line settings with
        | error outcome => exact h
        | ok directory =>
          have hwritten := isLogged_writeDocument directory text h
          dsimp only
          rcases hran : (Convert.writeDocument (Convert.outputPath directory Convert.defaultFile)
            text).run files with ⟨error | _, after⟩
          · rw [hran] at hwritten
            exact hwritten
          · rw [hran] at hwritten
            exact hwritten

/-- Commands other than `init` treat the configuration file like any other. -/
theorem alike_commandBody (hcommand : command ≠ .init)
    (hwords : ∀ word ∈ line.words, Avoids home word)
    (htarget : ∀ directory, directoryVerdict line settings = .ok directory →
      Avoids home directory) :
    Files.Alike (configPlace home) (commandBody tools home settings command line) := by
  cases command with
  | init => exact absurd rfl hcommand
  | check => exact alike_checkSource hwords
  | compile => exact alike_compileSource hwords htarget

end Command

end Stanza.Cli
