import Stanza.Proofs.Cli.Opening
import Stanza.Proofs.Files.Twin

/-!
The configuration file that is used unless another is given.

It is beside the directory of the log, so where the log is in its place the file is looked for at
one place (`Cli.placeOfName_configName`). The settings that `init` writes there are those that are
used where there is no file (`Cli.load_defaultBytes`), if reading undoes writing, and they are read
from nowhere but from that place (`Cli.settingsOf_agree`).
-/

namespace Stanza

/-! ### Names of files in a directory -/

theorem splitSlashes_ne_nil (text : List Char) : splitSlashes text ≠ [] := by
  cases text with
  | nil => simp [splitSlashes]
  | cons c rest =>
    rw [splitSlashes]
    split
    · simp
    · split
      · simp
      · simp

theorem splitSlashes_append (above below : List Char) :
    splitSlashes (above ++ '/' :: below) = splitSlashes above ++ splitSlashes below := by
  induction above with
  | nil => simp [splitSlashes]
  | cons c rest ih =>
    rw [List.cons_append, splitSlashes, splitSlashes, ih]
    split
    · rfl
    · cases hrest : splitSlashes rest with
      | nil => exact absurd hrest (splitSlashes_ne_nil rest)
      | cons part others => rfl

namespace Files

section Inside

variable {directory part : String}

/-- The path of a name in a directory. -/
theorem ofText_inside (hdirectory : directory ≠ "")
    (hpart : splitSlashes part.toList = [part.toList]) (hidle : FilePath.isIdle part = false) :
    FilePath.ofText (directory ++ "/" ++ part) =
      ⟨(FilePath.ofText directory).absolute, (FilePath.ofText directory).parts ++ [part]⟩ := by
  have htext : (directory ++ "/" ++ part).toList = directory.toList ++ '/' :: part.toList := by
    simp
  have hhead : (directory.toList ++ '/' :: part.toList).head? = directory.toList.head? := by
    cases hchars : directory.toList with
    | nil => exact absurd (by simpa using hchars) hdirectory
    | cons c rest => rfl
  unfold FilePath.ofText
  rw [htext, hhead, splitSlashes_append, hpart, List.map_append, List.filter_append]
  simp [hidle]

/-- A name in a directory does not end in a dot. -/
theorem getLast?_nameParts_inside (hpart : splitSlashes part.toList = [part.toList])
    (hempty : part ≠ "") :
    (nameParts (directory ++ "/" ++ part)).getLast? = some part := by
  have hparts : ((splitSlashes (directory ++ "/" ++ part).toList).map fun part =>
      if part.isEmpty then "." else String.ofList part) =
      ((splitSlashes directory.toList).map fun part =>
        if part.isEmpty then "." else String.ofList part) ++ [part] := by
    have htext : (directory ++ "/" ++ part).toList = directory.toList ++ '/' :: part.toList := by
      simp
    rw [htext, splitSlashes_append, hpart, List.map_append]
    simp [hempty]
  unfold nameParts
  rw [hparts]
  dsimp only
  split
  · rw [List.tail_append_of_ne_nil (by simpa using splitSlashes_ne_nil directory.toList)]
    simp
  · simp

end Inside

/-- Where a path ends. -/
theorem locate_concat (absolute : Bool) (front : List String) (part : String)
    (hpart : part ≠ "." ∧ part ≠ "..") :
    locate ⟨absolute, front ++ [part]⟩ = locate ⟨absolute, front⟩ ++ [part] := by
  rw [locate, List.foldl_append, List.foldl_cons, List.foldl_nil, next, if_neg hpart.1,
    if_neg hpart.2]
  rfl

end Files

namespace Cli

open Files

/-! ### Where the file is -/

section Place

variable {home : String} {files : Files}

/-- The place of the configuration file that is used unless another is given. -/
def configPlace (home : String) : Location := locate (.ofText (configName home))

/-- The path of the directory for settings and the log. -/
def ownPath (home : String) : FilePath := .ofText (ownDirectory home)

theorem ownDirectory_ne_empty (home : String) : ownDirectory home ≠ "" := by
  intro h
  have hchars := congrArg String.toList h
  simp [ownDirectory] at hchars

theorem configName_eq (home : String) :
    configName home = ownDirectory home ++ "/" ++ "config.yaml" := by
  rw [configName, String.append_assoc]
  rfl

theorem configPath_eq (home : String) :
    FilePath.ofText (configName home) =
      ⟨(ownPath home).absolute, (ownPath home).parts ++ ["config.yaml"]⟩ := by
  rw [configName_eq]
  exact ofText_inside (ownDirectory_ne_empty home) (by decide) (by decide)

theorem logDirectory_eq (home : String) :
    logDirectory home = ⟨(ownPath home).absolute, (ownPath home).parts ++ ["logs"]⟩ := by
  have hname : ownDirectory home ++ "/logs" = ownDirectory home ++ "/" ++ "logs" := by
    rw [String.append_assoc]
    rfl
  rw [logDirectory, hname]
  exact ofText_inside (ownDirectory_ne_empty home) (by decide) (by decide)

theorem configPlace_eq (home : String) :
    configPlace home = locate (ownPath home) ++ ["config.yaml"] := by
  rw [configPlace, configPath_eq, locate_concat _ _ _ (by decide)]

theorem locate_logPath (home : String) :
    locate (logPath home) = locate (logDirectory home) ++ ["hclscript.log"] := by
  rw [logPath_eq, locate_concat _ _ _ (by decide)]

theorem configPlace_ne_logPath (home : String) : configPlace home ≠ locate (logPath home) := by
  rw [configPlace_eq, locate_logPath]
  intro h
  exact absurd (List.append_inj_right' h rfl) (by decide)

/-- The directory of the configuration file is there, where that of the log is. -/
theorem isDirectory_ownPath (h : files.isDirectory (logDirectory home)) :
    files.isDirectory (ownPath home) := by
  obtain ⟨place, hplace, -⟩ := isDirectory_iff.mp h
  rw [logDirectory_eq] at hplace
  exact isDirectory_above hplace

/-- Where the directory of the log is there, the configuration file is looked for at its place. -/
theorem placeOfName_configName (h : files.isDirectory (logDirectory home)) :
    files.placeOfName (configName home) = .ok (configPlace home) := by
  refine placeOfName_of_place ?_ ?_ ?_
  · rw [configName_eq, getLast?_nameParts_inside (by decide) (by decide)]
    decide
  · intro hempty
    have hchars := congrArg String.toList hempty
    simp [configName, ownDirectory] at hchars
  · rw [configPlace, configPath_eq]
    exact place_in_directory (isDirectory_ownPath h) (by decide) (by decide)

end Place

/-! ### What is read there -/

section Settings

variable {tools : Tools} {codec : Settings.Codec} {home name : String} {files others : Files}
  {config : Option String}

/-- The default options are read from the entries that are written for them. -/
theorem ofValue_standard : Options.ofValue (.mapping Options.standard.toEntries) = .ok .standard :=
  rfl

/-- **What is written is what is used.** The settings read from a file with the default settings are
those that are used where there is no file. -/
theorem load_defaultBytes (hcodec : codec.IsLawful)
    (h : files.readName name = .ok (Settings.defaultBytes codec)) :
    Settings.load codec files name = .ok .standard := by
  have hentries : Settings.entries codec files name = .ok Settings.defaultEntries := by
    refine bind_eq_ok_iff.mpr ⟨Settings.defaultBytes codec, congrArg (Except.mapError _) h, ?_⟩
    exact bind_eq_ok_iff.mpr ⟨.mapping Settings.defaultEntries,
      congrArg (Except.mapError _) hcodec.read_default, rfl⟩
  have hoptions : Settings.optionsOf name Settings.defaultEntries = .ok .standard :=
    congrArg (Except.mapError _) ofValue_standard
  exact bind_eq_ok_iff.mpr ⟨Settings.defaultEntries, hentries,
    bind_eq_ok_iff.mpr ⟨.standard, hoptions, rfl⟩⟩

theorem load_eq_of_readName (codec : Settings.Codec)
    (h : files.readName name = others.readName name) :
    Settings.load codec files name = Settings.load codec others name := by
  rw [Settings.load, Settings.load, Settings.entries, Settings.entries, h]

theorem itemOfName_configName (h : files.isDirectory (logDirectory home)) :
    files.itemOfName (configName home) =
      match files.item? (configPlace home) with
      | some item => .ok item
      | none => .error .notFound := by
  rw [itemOfName, placeOfName_configName h]
  rfl

theorem readName_configName (h : files.isDirectory (logDirectory home)) :
    files.readName (configName home) = bytesOf (files.item? (configPlace home)) := by
  rw [Files.readName, placeOfName_configName h]
  rfl

/-- A name that does not lead through the configuration file, nor to it. -/
def Avoids (home name : String) : Prop := ¬IsAbove (.ofText name) (configPlace home)

instance (home name : String) : Decidable (Avoids home name) :=
  inferInstanceAs (Decidable (¬IsAbove (.ofText name) (configPlace home)))

/-- The configuration file is the same, or it is new and holds the default settings. -/
def SameConfig (codec : Settings.Codec) (home : String) (files others : Files) : Prop :=
  files.item? (configPlace home) = others.item? (configPlace home) ∨
    files.item? (configPlace home) = none ∧
      others.item? (configPlace home) = some (.file (Settings.defaultBytes codec))

/-- A new configuration file with the default settings changes no settings. -/
theorem settingsOf_agree (hcodec : tools.codec.IsLawful)
    (hdirectory : files.isDirectory (logDirectory home))
    (hdirectory' : others.isDirectory (logDirectory home))
    (hagree : AgreeBut (configPlace home) files others)
    (hsame : SameConfig tools.codec home files others)
    (havoid : ∀ name, config = some name → Avoids home name) :
    settingsOf tools home files config = settingsOf tools home others config := by
  cases config with
  | some name =>
    exact congrArg (Except.mapError _)
      (load_eq_of_readName _ (readName_agree hagree (havoid name rfl)))
  | none =>
    unfold settingsOf settingsIn exists?
    rw [itemOfName_configName hdirectory, itemOfName_configName hdirectory']
    rcases hsame with hsame | ⟨hnone, hdefault⟩
    · have hread : files.readName (configName home) = others.readName (configName home) := by
        rw [readName_configName hdirectory, readName_configName hdirectory', hsame]
      rw [hsame, load_eq_of_readName _ hread]
    · have hread : others.readName (configName home) =
          .ok (Settings.defaultBytes tools.codec) := by
        rw [readName_configName hdirectory', hdefault]
        rfl
      rw [hnone, hdefault, load_defaultBytes hcodec hread]
      rfl

end Settings

end Cli

end Stanza
