import Mathlib.Data.List.Infix
import Stanza.Files.Tree
import Stanza.Proofs.Steps

/-!
What actions leave of the files.

A path leads to one place if it leads anywhere (`Files.place_eq_ok`), for two dots are followed
name by name. So what an action does can be said of places, whatever it comes across on the way.
Making directories lets the files grow: whatever is at a place stays, and where something is new it
is a directory above the path (`Files.Grows`). That is kept by every step, also by those that fail,
and so by `ensureDirectory` (`Files.leaves_ensureDirectory`). Writing a file is a single step at the
end, which either fails or puts the file into its place (`Files.writeBelow_run`).
-/

namespace Stanza

/-! ### Runs of actions -/

namespace FileAction

variable {α β : Type}

theorem run_tryCatch (x : FileAction α) (handle : FileError → FileAction α) (files : Files) :
    (tryCatch x handle).run files =
      match x.run files with
      | (.ok a, after) => (.ok a, after)
      | (.error error, after) => (handle error).run after := by
  change (ExceptT.tryCatch x handle) files = _
  rw [ExceptT.run]
  simp only [ExceptT.tryCatch, ExceptT.mk, bind, StateT.bind]
  rcases hx : x files with ⟨_ | _, after⟩
  · rfl
  · rfl

/-- However an action ends, the files before and after it are in a relation. -/
def Leaves (relation : Files → Files → Prop) (x : FileAction α) : Prop :=
  ∀ files, relation files (x.run files).2

section Leaves

variable {relation : Files → Files → Prop}

theorem leaves_pure (hrefl : ∀ files, relation files files) (a : α) :
    Leaves relation (pure a : FileAction α) :=
  fun files => hrefl files

theorem Leaves.bind {x : FileAction α} {f : α → FileAction β}
    (htrans : ∀ a b c, relation a b → relation b c → relation a c) (hx : Leaves relation x)
    (hf : ∀ a, Leaves relation (f a)) : Leaves relation (x >>= f) := by
  intro files
  have hfirst := hx files
  rw [run_bind]
  rcases hrun : x.run files with ⟨error | a, after⟩
  · rwa [hrun] at hfirst
  · rw [hrun] at hfirst
    exact htrans _ _ _ hfirst (hf a after)

theorem Leaves.tryCatch {x : FileAction α} {handle : FileError → FileAction α}
    (htrans : ∀ a b c, relation a b → relation b c → relation a c) (hx : Leaves relation x)
    (hhandle : ∀ error, Leaves relation (handle error)) :
    Leaves relation (tryCatch x handle) := by
  intro files
  have hfirst := hx files
  rw [run_tryCatch]
  rcases hrun : x.run files with ⟨error | a, after⟩
  · rw [hrun] at hfirst
    exact htrans _ _ _ hfirst (hhandle error after)
  · rwa [hrun] at hfirst

end Leaves

end FileAction

namespace Files

/-! ### Places -/

/-- The place that a path leads to, if it leads anywhere. -/
def locate (p : FilePath) : Location := p.parts.foldl next (if p.absolute then root else [])

theorem follow_eq_ok {files : Files} {here place : Location} {parts : List String}
    (h : files.follow here parts = .ok place) : place = parts.foldl next here := by
  induction parts generalizing here with
  | nil => exact (Except.ok.inj h).symm
  | cons part rest ih =>
    rw [follow] at h
    split at h
    · simp at h
    · simp at h
    · split at h
      · simp at h
      · exact ih h

theorem place_eq_ok {files : Files} {p : FilePath} {place : Location}
    (h : files.place p = .ok place) : place = locate p := by
  unfold Files.place at h
  split at h
  · simp at h
  · exact follow_eq_ok h

theorem lookup_map_put (items : List (Location × Item)) (place other : Location) (item : Item) :
    (items.map fun entry => if entry.1 = place then (place, item) else entry).lookup other =
      if other = place then (items.lookup place).map fun _ => item else items.lookup other := by
  induction items with
  | nil => simp
  | cons entry rest ih =>
    obtain ⟨found, old⟩ := entry
    by_cases hfound : found = place
    · subst hfound
      by_cases hother : other = found
      · simp [hother]
      · simp [List.lookup_cons, beq_eq_false_iff_ne.mpr hother, hother, ih]
    · by_cases hother : other = place
      · subst hother
        have hne : (other == found) = false := beq_eq_false_iff_ne.mpr fun h => hfound h.symm
        simp [List.lookup_cons, hfound, hne, ih]
      · simp [List.lookup_cons, hfound, hother, ih]

/-- What is put at a place is there, and nothing is changed anywhere else. -/
theorem item?_put {files : Files} {place : Location} (item : Item) (other : Location)
    (h : files.item? place ≠ some .directory) :
    (files.put place item).item? other =
      if other = place then some item else files.item? other := by
  have hinner : isOuter place = false :=
    Bool.eq_false_iff.mpr fun houter => h (by rw [item?, if_pos houter])
  have hlookup : (files.put place item).items.lookup other =
      if other = place then some item else files.items.lookup other := by
    unfold put
    split
    · rename_i hsome
      obtain ⟨old, hold⟩ := Option.isSome_iff_exists.mp hsome
      rw [lookup_map_put, hold]
      rfl
    · rename_i hnone
      have hnew : files.items.lookup place = none := Option.not_isSome_iff_eq_none.mp hnone
      by_cases hother : other = place
      · simp [List.lookup_append, hother, hnew]
      · simp [List.lookup_append, List.lookup_cons, beq_eq_false_iff_ne.mpr hother, hother]
  unfold item?
  split
  · rename_i houter
    rw [if_neg]
    rintro rfl
    simp [hinner] at houter
  · exact hlookup

/-! ### Growth -/

/-- Whatever is at a place stays, and what is new is directories at certain places. -/
def Grows (allowed : Location → Prop) (before after : Files) : Prop :=
  ∀ place, after.item? place = before.item? place ∨
    before.item? place = none ∧ after.item? place = some .directory ∧ allowed place

theorem Grows.refl {allowed : Location → Prop} (files : Files) : Grows allowed files files :=
  fun _ => .inl rfl

theorem Grows.trans {allowed : Location → Prop} (a b c : Files) (hab : Grows allowed a b)
    (hbc : Grows allowed b c) : Grows allowed a c := by
  intro place
  rcases hbc place with hsame | ⟨hnone, hnew, hallowed⟩
  · rw [hsame]
    exact hab place
  · refine .inr ⟨?_, hnew, hallowed⟩
    rcases hab place with hsame | ⟨-, hdirectory, -⟩
    · rwa [← hsame]
    · simp [hdirectory] at hnone

/-- The same files are there with the same contents. -/
theorem Grows.file_iff {allowed : Location → Prop} {before after : Files}
    (h : Grows allowed before after) (place : Location) (bytes : List UInt8) :
    after.item? place = some (.file bytes) ↔ before.item? place = some (.file bytes) := by
  rcases h place with hsame | ⟨hnone, hnew, -⟩
  · rw [hsame]
  · simp [hnone, hnew]

/-- A place that a path leads to, or the first names of it. -/
def IsAbove (p : FilePath) (place : Location) : Prop :=
  ∃ parts, parts <+: p.parts ∧ place = locate ⟨p.absolute, parts⟩

theorem isAbove_locate (p : FilePath) : IsAbove p (locate p) := ⟨p.parts, List.prefix_rfl, rfl⟩

instance (p : FilePath) (place : Location) : Decidable (IsAbove p place) :=
  decidable_of_iff (∃ parts ∈ p.parts.inits, place = locate ⟨p.absolute, parts⟩) <| by
    simp only [List.mem_inits, IsAbove]

/-! ### Making directories -/

theorem run_look {α : Type} (read : Files → Except FileError α) (files : Files) :
    (look read).run files = (read files, files) := rfl

theorem run_get (files : Files) : (get : FileAction Files).run files = (.ok files, files) := rfl

section Making

variable {allowed : Location → Prop} {p : FilePath}

theorem makeDirectory_run (p : FilePath) (files : Files) :
    (makeDirectory p).run files =
      match files.place p with
      | .error error => (.error error, files)
      | .ok place =>
          match files.item? place with
          | some _ => (.error .alreadyThere, files)
          | none => (.ok (), files.put place .directory) := by
  rw [makeDirectory, run_bind, run_look]
  cases files.place p with
  | error error => rfl
  | ok place =>
    simp only [run_bind, run_get]
    cases files.item? place with
    | none => rfl
    | some item => rfl

theorem tolerate_run (p : FilePath) (error : FileError) (files : Files) :
    (tolerate p error).run files =
      (if files.isDirectory p then .ok () else .error error, files) := by
  simp only [tolerate, run_bind, run_get]
  cases files.isDirectory p with
  | true => rfl
  | false => rfl

theorem write_run (p : FilePath) (bytes : List UInt8) (files : Files) :
    (write p bytes).run files =
      match files.place p with
      | .error error => (.error error, files)
      | .ok place =>
          match files.item? place with
          | some .directory => (.error .isDirectory, files)
          | _ => (.ok (), files.put place (.file bytes)) := by
  rw [write, run_bind, run_look]
  cases files.place p with
  | error error => rfl
  | ok place =>
    simp only [run_bind, run_get]
    cases files.item? place with
    | none => rfl
    | some item =>
      cases item with
      | directory => rfl
      | file old => rfl

theorem leaves_makeDirectory (h : allowed (locate p)) :
    FileAction.Leaves (Grows allowed) (makeDirectory p) := by
  intro files other
  rw [makeDirectory_run]
  cases hplace : files.place p with
  | error error => exact .inl rfl
  | ok place =>
    obtain rfl := place_eq_ok hplace
    cases hitem : files.item? (locate p) with
    | some item => simp [hitem]
    | none =>
      simp only [hitem]
      have hput := item?_put .directory other (by rw [hitem]; simp : files.item? (locate p) ≠ _)
      by_cases hother : other = locate p
      · subst hother
        rw [if_pos rfl] at hput
        exact .inr ⟨hitem, hput, h⟩
      · rw [if_neg hother] at hput
        exact .inl hput

theorem leaves_tolerate (error : FileError) :
    FileAction.Leaves (Grows allowed) (tolerate p error) := by
  intro files
  rw [tolerate_run]
  exact .refl files

/-- **Making directories lets the files grow**, however it ends. -/
theorem leaves_ensureBackwards {absolute : Bool} {backwards : List String}
    (h : ∀ parts, parts <:+ backwards → allowed (locate ⟨absolute, parts.reverse⟩)) :
    FileAction.Leaves (Grows allowed) (ensureBackwards absolute backwards) := by
  induction backwards with
  | nil => exact FileAction.leaves_pure .refl ()
  | cons part before ih =>
    have hmake := leaves_makeDirectory (h (part :: before) List.suffix_rfl)
    have habove := ih fun parts hparts => h parts (hparts.trans (List.suffix_cons part before))
    rw [ensureBackwards]
    refine hmake.tryCatch Grows.trans fun error => ?_
    split
    · exact habove.bind Grows.trans fun _ => hmake.tryCatch Grows.trans leaves_tolerate
    · exact leaves_tolerate error

theorem leaves_ensureDirectory (p : FilePath) :
    FileAction.Leaves (Grows (IsAbove p)) (ensureDirectory p) := by
  refine leaves_ensureBackwards fun parts hparts => ⟨parts.reverse, ?_, rfl⟩
  simpa using List.reverse_prefix.mpr hparts

end Making

/-! ### Writing a file -/

/-- Writing a file either puts it where no directory is, after making directories, or fails with all
files as they were. -/
theorem writeBelow_run (p : FilePath) (bytes : List UInt8) (files : Files) :
    (∃ made, Grows (IsAbove p.parent) files made ∧ made.item? (locate p) ≠ some .directory ∧
      (writeBelow p bytes).run files = (.ok (), made.put (locate p) (.file bytes))) ∨
    ∃ error after, (writeBelow p bytes).run files = (.error error, after) ∧
      Grows (IsAbove p.parent) files after := by
  have hgrows := leaves_ensureDirectory p.parent files
  rw [writeBelow, run_bind]
  rcases hmade : (ensureDirectory p.parent).run files with ⟨error | _, made⟩
  · rw [hmade] at hgrows
    exact .inr ⟨error, made, rfl, hgrows⟩
  · rw [hmade] at hgrows
    simp only [write_run]
    cases hplace : made.place p with
    | error error => exact .inr ⟨error, made, rfl, hgrows⟩
    | ok place =>
      obtain rfl := place_eq_ok hplace
      cases hitem : made.item? (locate p) with
      | none => exact .inl ⟨made, hgrows, by simp [hitem], by simp [hitem]⟩
      | some item =>
        cases item with
        | directory => exact .inr ⟨.isDirectory, made, by simp [hitem], hgrows⟩
        | file old => exact .inl ⟨made, hgrows, by simp [hitem], by simp [hitem]⟩

end Files

end Stanza
