import Stanza.Proofs.Files.Following

/-!
What keeps a file from being written.

A directory is made with all those above it exactly when the way to it is free: its parts are names,
and no file is where a directory has to be (`Files.ensureDirectory_isOk_iff`). A file is written,
with the directories above it, exactly when nothing is in the way that can be said of the files as
they are before (`Files.Blocked`, `Files.writeBelow_isOk_iff`).
-/

namespace Stanza.Files

variable {files : Files} {p : FilePath} {absolute : Bool} {front before : List String}
  {part : String}

/-! ### The way to a directory -/

/-- Nothing is in the way of making the directory of a path, and those above it. -/
structure IsFree (files : Files) (p : FilePath) : Prop where
  /-- The parts of the path can be names. -/
  names : ∀ part ∈ p.parts, hasNull part = false ∧ part.utf8ByteSize ≤ partLimit
  /-- No file is where a directory has to be. -/
  places : ∀ place, IsAbove p place → ∀ bytes, files.item? place ≠ some (.file bytes)

theorem isAbove_append {place : Location} (part : String) (h : IsAbove ⟨absolute, front⟩ place) :
    IsAbove ⟨absolute, front ++ [part]⟩ place := by
  obtain ⟨parts, hparts, hplace⟩ := h
  exact ⟨parts, hparts.trans (List.prefix_append _ _), hplace⟩

theorem IsFree.above (h : IsFree files ⟨absolute, front ++ [part]⟩) :
    IsFree files ⟨absolute, front⟩ where
  names other hother := h.names other (List.mem_append_left _ hother)
  places place hplace := h.places place (isAbove_append part hplace)

theorem IsFree.grows {allowed : Location → Prop} {made : Files} (h : IsFree files p)
    (hmade : Grows allowed files made) : IsFree made p where
  names := h.names
  places place hplace bytes hfile := h.places place hplace bytes ((hmade.file_iff _ _).mp hfile)

/-- Where no file is in the way, parts lead to a place or are missing. -/
theorem follow_of_free {here : Location} {parts : List String}
    (hshort : ∀ part ∈ parts, part.utf8ByteSize ≤ partLimit)
    (hfree : ∀ front, front <+: parts → ∀ bytes,
      files.item? (front.foldl next here) ≠ some (.file bytes)) :
    (∃ place, files.follow here parts = .ok place) ∨
      files.follow here parts = .error .notFound := by
  induction parts generalizing here with
  | nil => exact .inl ⟨here, rfl⟩
  | cons part rest ih =>
    rw [follow_cons]
    cases hitem : files.item? here with
    | none => exact .inr rfl
    | some item =>
      cases item with
      | file bytes => exact absurd hitem (hfree [] List.nil_prefix bytes)
      | directory =>
        dsimp only
        rw [if_neg (Nat.not_lt.mpr (hshort part List.mem_cons_self))]
        exact ih (fun other hother => hshort other (List.mem_cons_of_mem _ hother))
          fun front hfront => hfree (part :: front) (List.cons_prefix_cons.mpr ⟨rfl, hfront⟩)

theorem IsFree.place (h : IsFree files p) :
    (∃ place, files.place p = .ok place) ∨ files.place p = .error .notFound := by
  have hnull : p.parts.any hasNull = false := by
    rw [List.any_eq_false]
    intro part hpart
    simp [(h.names part hpart).1]
  rw [Files.place, hnull]
  exact follow_of_free (fun part hpart => (h.names part hpart).2)
    fun front hfront => h.places _ ⟨front, hfront, rfl⟩

/-- Where the directory above it is there, a directory is made or is there already. -/
theorem makeDirectory_of_free (h : IsFree files ⟨absolute, front ++ [part]⟩)
    (habove : files.isDirectory ⟨absolute, front⟩) :
    (∃ after, (makeDirectory ⟨absolute, front ++ [part]⟩).run files = (.ok (), after)) ∨
      files.isDirectory ⟨absolute, front ++ [part]⟩ := by
  obtain ⟨hnull, hshort⟩ := h.names part (List.mem_append_right _ (List.mem_singleton_self _))
  have hplace := place_in_directory habove hnull hshort
  rw [makeDirectory_run, hplace]
  cases hitem : files.item? (locate ⟨absolute, front ++ [part]⟩) with
  | none =>
    refine .inl ⟨files.put (locate ⟨absolute, front ++ [part]⟩) .directory, ?_⟩
    simp only [hitem]
  | some item =>
    cases item with
    | directory => exact .inr (isDirectory_iff.mpr ⟨_, hplace, hitem⟩)
    | file bytes => exact absurd hitem (h.places _ (isAbove_locate _) bytes)

theorem ensureBackwards_isOk {backwards : List String}
    (h : IsFree files ⟨absolute, backwards.reverse⟩) :
    ((ensureBackwards absolute backwards).run files).1 = .ok () := by
  induction backwards generalizing files with
  | nil => rfl
  | cons part before ih =>
    rw [List.reverse_cons] at h
    by_cases habove : files.isDirectory ⟨absolute, before.reverse⟩
    · rcases makeDirectory_of_free h habove with ⟨after, hmake⟩ | hdirectory
      · rw [ensureBackwards_run, List.reverse_cons, hmake]
      · rw [ensureBackwards_run, List.reverse_cons, makeDirectory_run_of_isDirectory hdirectory]
        simp [hdirectory]
    · -- the directory above is missing, so it is made first
      have hplace : files.place ⟨absolute, before.reverse ++ [part]⟩ = .error .notFound := by
        rcases h.place with ⟨place, hplace⟩ | hmissing
        · exact absurd (isDirectory_above hplace) habove
        · exact hmissing
      have hmissing : (makeDirectory ⟨absolute, before.reverse ++ [part]⟩).run files =
          (.error .notFound, files) := by
        rw [makeDirectory_run, hplace]
      have hok := ih h.above
      have hgrows : Grows (fun _ => True) files ((ensureBackwards absolute before).run files).2 :=
        leaves_ensureBackwards (fun _ _ => trivial) files
      have hthere := (ensureBackwards_settles absolute before files).1.mp hok
      rcases hrun : (ensureBackwards absolute before).run files with ⟨result, made⟩
      rw [hrun] at hok hgrows hthere
      obtain rfl : result = .ok () := hok
      rw [ensureBackwards_run, List.reverse_cons, hmissing]
      simp only [if_true, hrun]
      rcases makeDirectory_of_free (h.grows hgrows) hthere with ⟨after, hmake⟩ | hdirectory
      · rw [hmake]
      · rw [makeDirectory_run_of_isDirectory hdirectory]
        simp [hdirectory]

/-- Parts that lead to a place are short enough. -/
theorem short_of_follow {here place : Location} {parts : List String}
    (h : files.follow here parts = .ok place) : ∀ part ∈ parts, part.utf8ByteSize ≤ partLimit := by
  induction parts generalizing here with
  | nil => nofun
  | cons part rest ih =>
    obtain ⟨-, hshort, hrest⟩ := follow_cons_eq_ok_iff.mp h
    exact List.forall_mem_cons.mpr ⟨hshort, ih hrest⟩

theorem names_of_place {place : Location} (h : files.place p = .ok place) :
    ∀ part ∈ p.parts, hasNull part = false ∧ part.utf8ByteSize ≤ partLimit := by
  obtain ⟨hnull, hfollow⟩ := place_eq_ok_iff.mp h
  intro part hpart
  refine ⟨?_, short_of_follow hfollow part hpart⟩
  exact Bool.eq_false_iff.mpr (List.any_eq_false.mp hnull part hpart)

/-- **A directory is made**, with those above it, exactly when the way to it is free. -/
theorem ensureDirectory_isOk_iff (p : FilePath) (files : Files) :
    ((ensureDirectory p).run files).1 = .ok () ↔ IsFree files p := by
  constructor
  · intro hok
    have hdirectory := (ensureDirectory_isOk p files).mp hok
    have hextends := (leaves_ensureDirectory p files).extends
    obtain ⟨place, hplace, -⟩ := isDirectory_iff.mp hdirectory
    refine ⟨names_of_place hplace, fun other hother bytes hfile => ?_⟩
    cases (hextends _ _ hfile).symm.trans (item?_of_isAbove hdirectory hother)
  · intro h
    refine ensureBackwards_isOk ?_
    rwa [List.reverse_reverse]

/-! ### Writing a file -/

/-- Something keeps a file from being written at a path, with the directories above it. -/
inductive Blocked (files : Files) (p : FilePath) : Prop where
  /-- A part of the path cannot be a name, for a null character in it. -/
  | null {part : String} : part ∈ p.parts → hasNull part → Blocked files p
  /-- A part of the path cannot be a name, for its length. -/
  | long {part : String} : part ∈ p.parts → partLimit < part.utf8ByteSize → Blocked files p
  /-- A file is where a directory above the path has to be. -/
  | file {place : Location} {bytes : List UInt8} : IsAbove p.parent place →
      files.item? place = some (.file bytes) → Blocked files p
  /-- A directory is where the file has to be. -/
  | directory : files.item? (locate p) = some .directory → Blocked files p
  /-- The path leads back to a directory that it goes through. -/
  | winding : IsAbove p.parent (locate p) → Blocked files p

theorem parent_append (absolute : Bool) (front : List String) (part : String) :
    FilePath.parent ⟨absolute, front ++ [part]⟩ = ⟨absolute, front⟩ := by
  rw [FilePath.parent, List.dropLast_concat]

/-- Once the directories above a path are made, a directory is at it exactly when there was one, or
it is one of them. -/
theorem item?_eq_directory_iff {made : Files} (hgrows : Grows (IsAbove p.parent) files made)
    (hmade : made.isDirectory p.parent) :
    made.item? (locate p) = some .directory ↔
      files.item? (locate p) = some .directory ∨ IsAbove p.parent (locate p) := by
  constructor
  · intro hdirectory
    rcases hgrows (locate p) with hsame | ⟨-, -, habove⟩
    · exact .inl (hsame ▸ hdirectory)
    · exact .inr habove
  · rintro (hdirectory | habove)
    · exact hgrows.extends _ _ hdirectory
    · exact item?_of_isAbove hmade habove

/-- Nothing is in the way of a file when the way to its directory is free, its own name can be one,
and it is not where a directory is or has to be. -/
theorem not_blocked_iff : ¬Blocked files p ↔
    IsFree files p.parent ∧
      (∀ part ∈ p.parts, hasNull part = false ∧ part.utf8ByteSize ≤ partLimit) ∧
      ¬(files.item? (locate p) = some .directory ∨ IsAbove p.parent (locate p)) := by
  constructor
  · intro h
    have hnames : ∀ part ∈ p.parts, hasNull part = false ∧ part.utf8ByteSize ≤ partLimit :=
      fun part hpart =>
        ⟨Bool.eq_false_iff.mpr fun hnull => h (.null hpart hnull),
          Nat.not_lt.mp fun hlong => h (.long hpart hlong)⟩
    exact ⟨⟨fun part hpart => hnames part (List.mem_of_mem_dropLast hpart),
        fun place hplace bytes hfile => h (.file hplace hfile)⟩, hnames,
      fun h' => h (h'.elim .directory .winding)⟩
  · rintro ⟨hfree, hnames, hplace⟩ h
    cases h with
    | null hpart hnull => exact absurd hnull (Bool.eq_false_iff.mp (hnames _ hpart).1)
    | long hpart hlong => exact absurd hlong (Nat.not_lt.mpr (hnames _ hpart).2)
    | file habove hfile => exact hfree.places _ habove _ hfile
    | directory hdirectory => exact hplace (.inl hdirectory)
    | winding habove => exact hplace (.inr habove)

/-- Where the directories above a path are there, the path leads to its place if its parts can be
names. -/
theorem place_eq_ok_of_parent {made : Files} (hmade : made.isDirectory p.parent)
    (hnames : ∀ part ∈ p.parts, hasNull part = false ∧ part.utf8ByteSize ≤ partLimit) :
    made.place p = .ok (locate p) := by
  obtain ⟨absolute, parts⟩ := p
  rcases List.eq_nil_or_concat' parts with rfl | ⟨front, part, rfl⟩
  · obtain ⟨place, hplace, -⟩ := isDirectory_iff.mp (isDirectory_start made absolute)
    rw [hplace, place_eq_ok hplace]
  · rw [parent_append] at hmade
    obtain ⟨hnull, hshort⟩ := hnames part (List.mem_append_right _ (List.mem_singleton_self _))
    exact place_in_directory hmade hnull hshort

/-- **A file is written**, with the directories above it, exactly when nothing is in the way. -/
theorem writeBelow_isOk_iff (p : FilePath) (bytes : List UInt8) (files : Files) :
    ((writeBelow p bytes).run files).1 = .ok () ↔ ¬Blocked files p := by
  have hends := ensureDirectory_isOk p.parent files
  have hfree := ensureDirectory_isOk_iff p.parent files
  have hgrows := leaves_ensureDirectory p.parent files
  rw [writeBelow, run_bind, not_blocked_iff, ← hfree]
  rcases hmade : (ensureDirectory p.parent).run files with ⟨error | _, made⟩
  · simp
  rw [hmade] at hends hgrows
  have hdirectory := hends.mp rfl
  rw [← item?_eq_directory_iff hgrows hdirectory]
  dsimp only
  rw [write_run]
  constructor
  · intro hok
    cases hplace : made.place p with
    | error error =>
      rw [hplace] at hok
      cases hok
    | ok place =>
      obtain rfl := place_eq_ok hplace
      refine ⟨rfl, names_of_place hplace, fun hitem => ?_⟩
      rw [hplace] at hok
      dsimp only at hok
      rw [hitem] at hok
      cases hok
  · rintro ⟨-, hnames, hitem⟩
    rw [place_eq_ok_of_parent hdirectory hnames]
    dsimp only
    split
    · rename_i hdirectory'
      exact absurd hdirectory' hitem
    · rfl

/-- Writing a file puts it into its place, after making directories, or something is in the way and
all files are left as they were. -/
theorem writeBelow_cases (p : FilePath) (bytes : List UInt8) (files : Files) :
    (¬Blocked files p ∧ ∃ made, Grows (IsAbove p.parent) files made ∧
      made.item? (locate p) ≠ some .directory ∧
      (writeBelow p bytes).run files = (.ok (), made.put (locate p) (.file bytes))) ∨
    Blocked files p ∧ ∃ error after, (writeBelow p bytes).run files = (.error error, after) ∧
      Grows (IsAbove p.parent) files after := by
  have hok := writeBelow_isOk_iff p bytes files
  rcases writeBelow_run p bytes files with ⟨made, hmade, hnew, hrun⟩ | ⟨error, after, hrun, hafter⟩
  · rw [hrun] at hok
    exact .inl ⟨hok.mp rfl, made, hmade, hnew, hrun⟩
  · rw [hrun] at hok
    refine .inr ⟨not_not.mp fun h => ?_, error, after, hrun, hafter⟩
    cases hok.mpr h

end Stanza.Files
