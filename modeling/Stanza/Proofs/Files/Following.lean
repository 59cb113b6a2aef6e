import Stanza.Proofs.Files.Growth

/-!
Following names.

Where more is there, every name that led somewhere still leads to the same place
(`Files.follow_of_extends`), so nothing that has been read is read in another way later on. A name
as it is given and the path that it stands for lead to the same place, if the name leads anywhere
(`Files.place_ofText`); only a name can ask for more, with a slash at its end.

Making a directory with all those above it ends well exactly when the directory is there afterwards,
and what it leaves is left as it is by doing the same once more, also where it fails half way
(`Files.ensureDirectory_isOk`, `Files.ensureDirectory_again`).
-/

namespace Stanza.Files

/-! ### Extensions -/

/-- Whatever is at a place of some files is there in others too. -/
def Extends (less more : Files) : Prop :=
  ∀ place item, less.item? place = some item → more.item? place = some item

section Extends

variable {files less more : Files}

theorem Extends.refl (files : Files) : Extends files files := fun _ _ h => h

theorem Extends.trans {middle : Files} (h : Extends less middle) (h' : Extends middle more) :
    Extends less more :=
  fun place item hitem => h' place item (h place item hitem)

theorem Grows.extends {allowed : Location → Prop} (h : Grows allowed less more) :
    Extends less more := by
  intro place item hitem
  rcases h place with hsame | ⟨hnone, -, -⟩
  · rw [hsame, hitem]
  · simp [hnone] at hitem

theorem extends_put {place : Location} (item : Item) (h : files.item? place = none) :
    Extends files (files.put place item) := by
  intro other found hfound
  rw [item?_put item other (by simp [h]), if_neg]
  · exact hfound
  · rintro rfl
    simp [h] at hfound

theorem follow_cons (files : Files) (here : Location) (part : String) (rest : List String) :
    files.follow here (part :: rest) =
      match files.item? here with
      | none => .error .notFound
      | some (.file _) => .error .notDirectory
      | some .directory =>
          if partLimit < part.utf8ByteSize then .error .longName
          else files.follow (next here part) rest :=
  rfl

/-- A part of a name is followed from a directory, if it is not too long. -/
theorem follow_cons_eq_ok_iff {here place : Location} {part : String} {rest : List String} :
    files.follow here (part :: rest) = .ok place ↔
      files.item? here = some .directory ∧ part.utf8ByteSize ≤ partLimit ∧
        files.follow (next here part) rest = .ok place := by
  rw [follow_cons]
  cases hitem : files.item? here with
  | none => simp
  | some item =>
    cases item with
    | file bytes => simp
    | directory =>
      by_cases hlong : partLimit < part.utf8ByteSize
      · simp [hlong, Nat.not_le.mpr hlong]
      · simp [hlong, Nat.not_lt.mp hlong]

/-- Where more is there, names lead to the same places. -/
theorem follow_of_extends {here place : Location} {parts : List String} (h : Extends less more)
    (hfollow : less.follow here parts = .ok place) : more.follow here parts = .ok place := by
  induction parts generalizing here with
  | nil => exact hfollow
  | cons part rest ih =>
    obtain ⟨hdirectory, hshort, hrest⟩ := follow_cons_eq_ok_iff.mp hfollow
    exact follow_cons_eq_ok_iff.mpr ⟨h _ _ hdirectory, hshort, ih hrest⟩

theorem follow_append (files : Files) (here : Location) (front back : List String) :
    files.follow here (front ++ back) =
      files.follow here front >>= fun place => files.follow place back := by
  induction front generalizing here with
  | nil => rfl
  | cons part rest ih =>
    rw [List.cons_append, follow_cons, follow_cons]
    cases files.item? here with
    | none => rfl
    | some item =>
      cases item with
      | file bytes => rfl
      | directory =>
        dsimp only
        split
        · rfl
        · exact ih _

/-- The place of a path is that of its parts, none of which holds a null character. -/
theorem place_eq_ok_iff {p : FilePath} {place : Location} :
    files.place p = .ok place ↔ p.parts.any hasNull = false ∧
      files.follow (if p.absolute then root else []) p.parts = .ok place := by
  unfold Files.place
  split
  · simp [*]
  · simp [*]

theorem place_of_extends {p : FilePath} {place : Location} (h : Extends less more)
    (hplace : less.place p = .ok place) : more.place p = .ok place := by
  obtain ⟨hnull, hfollow⟩ := place_eq_ok_iff.mp hplace
  exact place_eq_ok_iff.mpr ⟨hnull, follow_of_extends h hfollow⟩

theorem isDirectory_iff {p : FilePath} :
    files.isDirectory p ↔
      ∃ place, files.place p = .ok place ∧ files.item? place = some .directory := by
  unfold isDirectory
  cases files.place p with
  | error error => simp
  | ok place => simp

theorem isDirectory_of_extends {p : FilePath} (h : Extends less more)
    (hdirectory : less.isDirectory p) : more.isDirectory p := by
  obtain ⟨place, hplace, hitem⟩ := isDirectory_iff.mp hdirectory
  exact isDirectory_iff.mpr ⟨place, place_of_extends h hplace, h _ _ hitem⟩

end Extends

/-! ### Names and paths -/

/-- The parts of a name as they are followed. A part without characters stays where it is. -/
def nameParts (name : String) : List String :=
  let parts := (splitSlashes name.toList).map fun part =>
    if part.isEmpty then "." else String.ofList part
  if name.toList.head? = some '/' then parts.tail else parts

theorem placeOfName_eq (files : Files) (name : String) :
    files.placeOfName name =
      if hasNull name then .error .nullCharacter
      else if name = "" then .error .notFound
      else
        files.follow (if (FilePath.ofText name).absolute then root else []) (nameParts name) := by
  unfold placeOfName nameParts FilePath.ofText
  by_cases hname : name = ""
  · simp [hname]
  · by_cases hroot : name.toList.head? = some '/'
    · simp [hname, hroot]
    · simp [hname, hroot]

theorem placeOfName_eq_ok_iff {files : Files} {name : String} {place : Location} :
    files.placeOfName name = .ok place ↔ hasNull name = false ∧ name ≠ "" ∧
      files.follow (if (FilePath.ofText name).absolute then root else []) (nameParts name) =
        .ok place := by
  rw [placeOfName_eq]
  split
  · simp [*]
  · split
    · simp [*]
    · simp [*]

/-- The characters of a name are those of its parts and the slashes. -/
theorem exists_mem_splitSlashes_iff {c : Char} (hslash : c ≠ '/') {text : List Char} :
    (∃ part ∈ splitSlashes text, c ∈ part) ↔ c ∈ text := by
  induction text with
  | nil => simp [splitSlashes]
  | cons d rest ih =>
    rw [splitSlashes, List.mem_cons, ← ih]
    split
    · rename_i hd
      have hcd : c ≠ d := by
        rintro rfl
        exact hslash hd
      simp [hcd]
    · split
      · rename_i hrest
        simp [hrest]
      · rename_i first others hrest
        rw [hrest]
        constructor
        · rintro ⟨part, hpart, hc⟩
          rcases List.mem_cons.mp hpart with rfl | hpart
          · rcases List.mem_cons.mp hc with hd | hc
            · exact .inl hd
            · exact .inr ⟨first, List.mem_cons_self, hc⟩
          · exact .inr ⟨part, List.mem_cons_of_mem _ hpart, hc⟩
        · rintro (rfl | ⟨part, hpart, hc⟩)
          · exact ⟨c :: first, List.mem_cons_self, List.mem_cons_self⟩
          · rcases List.mem_cons.mp hpart with rfl | hpart
            · exact ⟨d :: part, List.mem_cons_self, List.mem_cons_of_mem _ hc⟩
            · exact ⟨part, List.mem_cons_of_mem _ hpart, hc⟩

/-- The parts of the path of a name are those of the name that lead on. -/
theorem parts_ofText (name : String) :
    (FilePath.ofText name).parts = (nameParts name).filter (· ≠ ".") := by
  have hparts : ∀ split : List (List Char),
      (split.map String.ofList).filter (fun part => !FilePath.isIdle part) =
        (split.map fun part => if part.isEmpty then "." else String.ofList part).filter
          (· ≠ ".") := by
    intro split
    induction split with
    | nil => rfl
    | cons part rest ih =>
      rw [List.map_cons, List.map_cons, List.filter_cons, List.filter_cons, ih]
      cases part with
      | nil => rfl
      | cons c part => simp [FilePath.isIdle]
  have habsolute : ∀ text : List Char, text.head? = some '/' →
      ∃ rest, splitSlashes text = [] :: rest := by
    intro text h
    cases text with
    | nil => simp at h
    | cons c rest =>
      obtain rfl : c = '/' := by simpa using h
      exact ⟨_, by rw [splitSlashes, if_pos rfl]⟩
  rw [FilePath.ofText, hparts, nameParts]
  dsimp only
  split
  · rename_i hroot
    obtain ⟨rest, hsplit⟩ := habsolute _ hroot
    simp [hsplit]
  · rfl

theorem any_hasNull_ofText (name : String) :
    (FilePath.ofText name).parts.any hasNull = hasNull name := by
  have hsplit : (∃ part ∈ splitSlashes name.toList, '\x00' ∈ part) ↔ '\x00' ∈ name.toList :=
    exists_mem_splitSlashes_iff (by decide)
  rw [Bool.eq_iff_iff, List.any_eq_true]
  constructor
  · rintro ⟨part, hpart, hnull⟩
    obtain ⟨chars, hchars, rfl⟩ := List.mem_map.mp (List.mem_filter.mp hpart).1
    have hmem : '\x00' ∈ chars := by simpa [hasNull] using hnull
    simpa [hasNull] using hsplit.mp ⟨chars, hchars, hmem⟩
  · intro hnull
    obtain ⟨chars, hchars, hmem⟩ := hsplit.mpr (by simpa [hasNull] using hnull)
    refine ⟨String.ofList chars, List.mem_filter.mpr ⟨List.mem_map_of_mem hchars, ?_⟩, ?_⟩
    · have hempty : String.ofList chars ≠ "" := by
        intro h
        have hchars : chars = [] := by simpa using h
        simp [hchars] at hmem
      have hdot : String.ofList chars ≠ "." := by
        intro h
        have hchars : chars = ['.'] := by simpa using congrArg String.toList h
        simp [hchars] at hmem
      simp [FilePath.isIdle, hempty, hdot]
    · simpa [hasNull] using hmem

/-- Parts that stay where they are can be left out, and put back in front of another part. -/
theorem follow_filter {files : Files} {here place : Location} {parts : List String} :
    (files.follow here parts = .ok place → files.follow here (parts.filter (· ≠ ".")) = .ok place) ∧
      (parts.getLast? ≠ some "." → files.follow here (parts.filter (· ≠ ".")) = .ok place →
        files.follow here parts = .ok place) := by
  induction parts generalizing here with
  | nil => exact ⟨id, fun _ => id⟩
  | cons part rest ih =>
    obtain ⟨ihleft, ihright⟩ := @ih (next here part)
    by_cases hdot : part = "."
    · subst hdot
      have hnext : next here "." = here := if_pos rfl
      rw [List.filter_cons_of_neg (by simp), follow_cons_eq_ok_iff]
      rw [hnext] at ihleft ihright ⊢
      constructor
      · rintro ⟨-, -, hrest⟩
        exact ihleft hrest
      · intro hlast hfilter
        cases rest with
        | nil => simp at hlast
        | cons other rest =>
          rw [List.getLast?_cons_cons] at hlast
          have hrest := ihright hlast hfilter
          exact ⟨(follow_cons_eq_ok_iff.mp hrest).1, by decide, hrest⟩
    · rw [List.filter_cons_of_pos (by simpa using hdot), follow_cons_eq_ok_iff,
        follow_cons_eq_ok_iff]
      constructor
      · rintro ⟨hdirectory, hshort, hrest⟩
        exact ⟨hdirectory, hshort, ihleft hrest⟩
      · rintro hlast ⟨hdirectory, hshort, hfilter⟩
        refine ⟨hdirectory, hshort, ihright ?_ hfilter⟩
        cases rest with
        | nil => simp
        | cons other rest => rwa [List.getLast?_cons_cons] at hlast

/-- A name that leads somewhere leads to the place of its path. -/
theorem place_ofText {files : Files} {name : String} {place : Location}
    (h : files.placeOfName name = .ok place) : files.place (.ofText name) = .ok place := by
  obtain ⟨hnull, -, hfollow⟩ := placeOfName_eq_ok_iff.mp h
  refine place_eq_ok_iff.mpr ⟨?_, ?_⟩
  · rw [any_hasNull_ofText, hnull]
  · rw [parts_ofText]
    exact follow_filter.1 hfollow

/-- A path leads to the place of its name, unless the name ends in a slash or a dot. -/
theorem placeOfName_of_place {files : Files} {name : String} {place : Location}
    (hlast : (nameParts name).getLast? ≠ some ".") (hname : name ≠ "")
    (h : files.place (.ofText name) = .ok place) : files.placeOfName name = .ok place := by
  obtain ⟨hnull, hfollow⟩ := place_eq_ok_iff.mp h
  rw [any_hasNull_ofText] at hnull
  rw [parts_ofText] at hfollow
  exact placeOfName_eq_ok_iff.mpr ⟨hnull, hname, follow_filter.2 hlast hfollow⟩

section Extends

variable {less more : Files} {name : String}

theorem placeOfName_of_extends {place : Location} (h : Extends less more)
    (hplace : less.placeOfName name = .ok place) : more.placeOfName name = .ok place := by
  obtain ⟨hnull, hname, hfollow⟩ := placeOfName_eq_ok_iff.mp hplace
  exact placeOfName_eq_ok_iff.mpr ⟨hnull, hname, follow_of_extends h hfollow⟩

theorem itemOfName_eq_ok_iff {files : Files} {item : Item} :
    files.itemOfName name = .ok item ↔
      ∃ place, files.placeOfName name = .ok place ∧ files.item? place = some item := by
  unfold itemOfName
  cases files.placeOfName name with
  | error error => simp [bind, Except.bind]
  | ok place =>
    cases hitem : files.item? place with
    | none => simp [bind, Except.bind, hitem]
    | some found => simp [bind, Except.bind, pure, Except.pure, hitem]

theorem itemOfName_of_extends {item : Item} (h : Extends less more)
    (hitem : less.itemOfName name = .ok item) : more.itemOfName name = .ok item := by
  obtain ⟨place, hplace, hfound⟩ := itemOfName_eq_ok_iff.mp hitem
  exact itemOfName_eq_ok_iff.mpr ⟨place, placeOfName_of_extends h hplace, h _ _ hfound⟩

/-- What there is under a name is read at its path. -/
theorem read_of_itemOfName {files : Files} {bytes : List UInt8}
    (h : files.itemOfName name = .ok (.file bytes)) : files.read (.ofText name) = .ok bytes := by
  obtain ⟨place, hplace, hitem⟩ := itemOfName_eq_ok_iff.mp h
  simp [read, place_ofText hplace, hitem, bytesOf, bind, Except.bind]

end Extends

/-! ### Making directories -/

section Making

variable {files : Files} {p : FilePath} {absolute : Bool} {part : String} {before : List String}

/-- A directory above a path that leads anywhere is there. -/
theorem isDirectory_above {front : List String} {place : Location}
    (h : files.place ⟨absolute, front ++ [part]⟩ = .ok place) :
    files.isDirectory ⟨absolute, front⟩ := by
  obtain ⟨hnull, hfollow⟩ := place_eq_ok_iff.mp h
  rw [follow_append] at hfollow
  cases hfront : files.follow (if absolute then root else []) front with
  | error error => simp [hfront, bind, Except.bind] at hfollow
  | ok above =>
    rw [hfront] at hfollow
    rw [List.any_append, Bool.or_eq_false_iff] at hnull
    exact isDirectory_iff.mpr ⟨above, place_eq_ok_iff.mpr ⟨hnull.1, hfront⟩,
      (follow_cons_eq_ok_iff.mp hfollow).1⟩

theorem isDirectory_start (files : Files) (absolute : Bool) : files.isDirectory ⟨absolute, []⟩ := by
  refine isDirectory_iff.mpr ⟨if absolute then root else [], by cases absolute <;> rfl, ?_⟩
  rw [item?, if_pos]
  cases absolute <;> decide

/-- A file in a directory that is there is looked for at its place. -/
theorem place_in_directory {front : List String}
    (h : files.isDirectory ⟨absolute, front⟩) (hnull : hasNull part = false)
    (hshort : part.utf8ByteSize ≤ partLimit) :
    files.place ⟨absolute, front ++ [part]⟩ = .ok (locate ⟨absolute, front ++ [part]⟩) := by
  obtain ⟨place, hplace, hitem⟩ := isDirectory_iff.mp h
  obtain ⟨hfree, hfollow⟩ := place_eq_ok_iff.mp hplace
  have hfound : files.place ⟨absolute, front ++ [part]⟩ = .ok (next place part) := by
    refine place_eq_ok_iff.mpr ⟨?_, ?_⟩
    · simpa [hnull] using hfree
    · rw [follow_append, hfollow]
      exact follow_cons_eq_ok_iff.mpr ⟨hitem, hshort, rfl⟩
  rw [hfound, place_eq_ok hfound]

/-- All that is above a directory is a directory. -/
theorem item?_of_isAbove {place : Location}
    (h : files.isDirectory p) (habove : IsAbove p place) :
    files.item? place = some .directory := by
  obtain ⟨found, hplace, hitem⟩ := isDirectory_iff.mp h
  obtain ⟨hnull, hfollow⟩ := place_eq_ok_iff.mp hplace
  obtain ⟨front, ⟨back, hparts⟩, rfl⟩ := habove
  rw [← hparts, follow_append] at hfollow
  cases hfront : files.follow (if p.absolute then root else []) front with
  | error error =>
    rw [hfront] at hfollow
    cases hfollow
  | ok here =>
    rw [hfront] at hfollow
    obtain rfl : here = locate ⟨p.absolute, front⟩ := follow_eq_ok hfront
    cases back with
    | nil =>
      obtain rfl := Except.ok.inj hfollow
      exact hitem
    | cons part rest => exact (follow_cons_eq_ok_iff.mp hfollow).1

/-- A directory that is made is there afterwards. -/
theorem isDirectory_of_makeDirectory {after : Files}
    (h : (makeDirectory p).run files = (.ok (), after)) : after.isDirectory p := by
  rw [makeDirectory_run] at h
  cases hplace : files.place p with
  | error error =>
    rw [hplace] at h
    cases (Prod.mk.inj h).1
  | ok place =>
    cases hitem : files.item? place with
    | some item =>
      simp only [hplace, hitem] at h
      cases (Prod.mk.inj h).1
    | none =>
      simp only [hplace, hitem] at h
      obtain rfl := (Prod.mk.inj h).2
      refine isDirectory_iff.mpr ⟨place, place_of_extends (extends_put _ hitem) hplace, ?_⟩
      rw [item?_put _ _ (by simp [hitem]), if_pos rfl]

/-- A directory that cannot be made leaves the files as they are. -/
theorem makeDirectory_run_error {error : FileError} {after : Files}
    (h : (makeDirectory p).run files = (.error error, after)) : after = files := by
  rw [makeDirectory_run] at h
  split at h
  · exact (Prod.mk.inj h).2.symm
  · split at h
    · exact (Prod.mk.inj h).2.symm
    · cases (Prod.mk.inj h).1

theorem makeDirectory_run_of_isDirectory (h : files.isDirectory p) :
    (makeDirectory p).run files = (.error .alreadyThere, files) := by
  obtain ⟨place, hplace, hitem⟩ := isDirectory_iff.mp h
  rw [makeDirectory_run, hplace]
  simp only [hitem]

/-- The run of a step of `ensureBackwards`, from that of the steps above it. -/
theorem ensureBackwards_run (absolute : Bool) (part : String) (before : List String)
    (files : Files) :
    let p : FilePath := ⟨absolute, (part :: before).reverse⟩
    (ensureBackwards absolute (part :: before)).run files =
      match (makeDirectory p).run files with
      | (.ok _, after) => (.ok (), after)
      | (.error error, _) =>
          if error = .notFound then
            match (ensureBackwards absolute before).run files with
            | (.error error, after) => (.error error, after)
            | (.ok _, made) =>
                match (makeDirectory p).run made with
                | (.ok _, after) => (.ok (), after)
                | (.error error, _) => (if made.isDirectory p then .ok () else .error error, made)
          else (if files.isDirectory p then .ok () else .error error, files) := by
  intro p
  rw [ensureBackwards, FileAction.run_tryCatch]
  rcases hmake : (makeDirectory p).run files with ⟨error | _, after⟩
  · obtain rfl := makeDirectory_run_error hmake
    dsimp only
    by_cases hnotFound : error = .notFound
    · rw [if_pos hnotFound, if_pos hnotFound, run_bind]
      rcases habove : (ensureBackwards absolute before).run after with ⟨error' | _, made⟩
      · rfl
      · dsimp only
        rw [FileAction.run_tryCatch]
        rcases hagain : (makeDirectory p).run made with ⟨error'' | _, last⟩
        · obtain rfl := makeDirectory_run_error hagain
          exact tolerate_run p error'' last
        · rfl
    · rw [if_neg hnotFound, if_neg hnotFound]
      exact tolerate_run p error after
  · rfl

/-- Where the directory above a path is missing, the path cannot be made. -/
theorem makeDirectory_run_of_missing
    (h : files.isDirectory ⟨absolute, before.reverse⟩ = false) :
    ∃ error, (makeDirectory ⟨absolute, (part :: before).reverse⟩).run files =
      (.error error, files) := by
  rw [makeDirectory_run]
  cases hplace : files.place ⟨absolute, (part :: before).reverse⟩ with
  | error error => exact ⟨error, rfl⟩
  | ok place =>
    rw [List.reverse_cons] at hplace
    simp [isDirectory_above hplace] at h

/-- A path that cannot be made leaves the files as they are, unless directories above it are
made. -/
theorem ensureBackwards_stays {error : FileError}
    (hmake : (makeDirectory ⟨absolute, (part :: before).reverse⟩).run files = (.error error, files))
    (habove : error = .notFound → ((ensureBackwards absolute before).run files).2 = files) :
    ((ensureBackwards absolute (part :: before)).run files).2 = files := by
  rw [ensureBackwards_run, hmake]
  dsimp only
  split
  · rename_i hnotFound
    have hstays := habove hnotFound
    rcases hrun : (ensureBackwards absolute before).run files with ⟨_ | _, made⟩
    · rw [hrun] at hstays
      exact hstays
    · rw [hrun] at hstays
      obtain rfl : made = files := hstays
      simp only [hmake]
  · rfl

/-- Making a directory ends well exactly when the directory is there afterwards, and what it leaves
is left as it is by doing the same once more. -/
theorem ensureBackwards_settles (absolute : Bool) (backwards : List String) (files : Files) :
    let run := (ensureBackwards absolute backwards).run
    ((run files).1 = .ok () ↔ (run files).2.isDirectory ⟨absolute, backwards.reverse⟩) ∧
      (run (run files).2).2 = (run files).2 := by
  induction backwards generalizing files with
  | nil => exact ⟨⟨fun _ => isDirectory_start files absolute, fun _ => rfl⟩, rfl⟩
  | cons part before ih =>
    intro run
    let p : FilePath := ⟨absolute, (part :: before).reverse⟩
    have hrun : run files = _ := ensureBackwards_run absolute part before files
    -- what is made, or is there already, is left alone
    have hmade : ∀ after : Files, after.isDirectory p → (run after).2 = after := by
      intro after hdirectory
      exact ensureBackwards_stays (makeDirectory_run_of_isDirectory hdirectory) (by simp)
    have htolerated : ∀ (made : Files) (error : FileError),
        ((if made.isDirectory p then .ok () else .error error : Except FileError Unit) = .ok () ↔
          made.isDirectory p) := by
      intro made error
      cases made.isDirectory p <;> simp
    rcases hmake : (makeDirectory p).run files with ⟨error | _, after⟩
    case ok =>
      have hdirectory := isDirectory_of_makeDirectory hmake
      rw [hmake] at hrun
      rw [hrun]
      exact ⟨⟨fun _ => hdirectory, fun _ => rfl⟩, hmade after hdirectory⟩
    case error =>
      obtain rfl := makeDirectory_run_error hmake
      rw [hmake] at hrun
      by_cases hnotFound : error = .notFound
      case neg =>
        simp only [hnotFound, if_false] at hrun
        rw [hrun]
        exact ⟨htolerated after error, ensureBackwards_stays hmake fun h => absurd h hnotFound⟩
      case pos =>
        obtain ⟨hends, hstays⟩ := ih after
        simp only [hnotFound, if_true] at hrun
        rcases habove : (ensureBackwards absolute before).run after with ⟨error' | _, made⟩
        case error =>
          simp only [habove] at hrun hends hstays
          have hmissing : made.isDirectory ⟨absolute, before.reverse⟩ = false :=
            Bool.eq_false_iff.mpr fun hdirectory => by cases hends.mpr hdirectory
          obtain ⟨again, hagain⟩ := @makeDirectory_run_of_missing made absolute part before hmissing
          rw [hrun]
          refine ⟨⟨fun h => by simp at h, fun hdirectory => ?_⟩, ensureBackwards_stays hagain ?_⟩
          · obtain ⟨place, hplace, -⟩ := isDirectory_iff.mp hdirectory
            rw [List.reverse_cons] at hplace
            simp [isDirectory_above hplace] at hmissing
          · intro _
            exact hstays
        case ok =>
          simp only [habove] at hrun hstays
          rcases hagain : (makeDirectory p).run made with ⟨error | _, last⟩
          case ok =>
            have hdirectory := isDirectory_of_makeDirectory hagain
            rw [hagain] at hrun
            rw [hrun]
            exact ⟨⟨fun _ => hdirectory, fun _ => rfl⟩, hmade last hdirectory⟩
          case error =>
            obtain rfl := makeDirectory_run_error hagain
            rw [hagain] at hrun
            rw [hrun]
            exact ⟨htolerated last error, ensureBackwards_stays hagain fun _ => hstays⟩

/-- Making a directory ends well exactly when the directory is there afterwards. -/
theorem ensureDirectory_isOk (p : FilePath) (files : Files) :
    ((ensureDirectory p).run files).1 = .ok () ↔
      ((ensureDirectory p).run files).2.isDirectory p := by
  have h := (ensureBackwards_settles p.absolute p.parts.reverse files).1
  rw [List.reverse_reverse] at h
  exact h

/-- Making a directory once more changes nothing. -/
theorem ensureDirectory_again (p : FilePath) (files : Files) :
    ((ensureDirectory p).run ((ensureDirectory p).run files).2).2 =
      ((ensureDirectory p).run files).2 :=
  (ensureBackwards_settles p.absolute p.parts.reverse files).2

/-- A directory that is there is left as it is. -/
theorem ensureDirectory_of_isDirectory (h : files.isDirectory p) :
    (ensureDirectory p).run files = (.ok (), files) := by
  unfold ensureDirectory
  obtain ⟨absolute, parts⟩ := p
  rcases hparts : parts.reverse with _ | ⟨part, before⟩
  · rfl
  · have hback : (part :: before).reverse = parts := by rw [← hparts, List.reverse_reverse]
    rw [ensureBackwards_run, hback, makeDirectory_run_of_isDirectory h]
    simp only [reduceCtorEq, if_false, h, if_true]

end Making

end Stanza.Files
