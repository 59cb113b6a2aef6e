import Stanza.Proofs.Files.Following

/-!
Files that agree but at one place.

A name that does not lead through a place is followed in the same way whatever is there
(`Files.follow_agree`). So an action on such names ends in the same way on files that agree
everywhere else, what it leaves agrees again, and the place itself is left as it was: the action is
`Alike`. The property is kept by putting actions together, so it holds of making directories and of
writing files (`Files.alike_writeBelow`).
-/

namespace Stanza

namespace Files

/-- Some files and others are the same everywhere but at a place. -/
def AgreeBut (place : Location) (files others : Files) : Prop :=
  ∀ other, other ≠ place → files.item? other = others.item? other

section Agreement

variable {place : Location} {files others : Files} {p : FilePath} {name : String}

theorem AgreeBut.refl (place : Location) (files : Files) : AgreeBut place files files :=
  fun _ _ => rfl

theorem AgreeBut.symm (h : AgreeBut place files others) : AgreeBut place others files :=
  fun other hother => (h other hother).symm

theorem follow_agree {here : Location} {parts : List String} (h : AgreeBut place files others)
    (havoid : ∀ front, front <+: parts → front.foldl next here ≠ place) :
    files.follow here parts = others.follow here parts := by
  induction parts generalizing here with
  | nil => rfl
  | cons part rest ih =>
    have hhere : files.item? here = others.item? here := h here (havoid [] List.nil_prefix)
    have hrest : files.follow (next here part) rest = others.follow (next here part) rest :=
      ih fun front hfront => havoid (part :: front) (List.cons_prefix_cons.mpr ⟨rfl, hfront⟩)
    rw [follow_cons, follow_cons, hhere, hrest]

theorem place_agree (h : AgreeBut place files others) (havoid : ¬IsAbove p place) :
    files.place p = others.place p := by
  unfold Files.place
  split
  · rfl
  · refine follow_agree h fun front hfront hplace => ?_
    exact havoid ⟨front, hfront, hplace.symm⟩

/-- Parts that stay where they are do not change where a name leads. -/
theorem foldl_next_filter (here : Location) (parts : List String) :
    (parts.filter (· ≠ ".")).foldl next here = parts.foldl next here := by
  induction parts generalizing here with
  | nil => rfl
  | cons part rest ih =>
    by_cases hdot : part = "."
    · rw [List.filter_cons_of_neg (by simpa using hdot), ih, List.foldl_cons, hdot, next,
        if_pos rfl]
    · rw [List.filter_cons_of_pos (by simpa using hdot), List.foldl_cons, ih, List.foldl_cons]

theorem placeOfName_agree (h : AgreeBut place files others)
    (havoid : ¬IsAbove (.ofText name) place) :
    files.placeOfName name = others.placeOfName name := by
  rw [placeOfName_eq, placeOfName_eq]
  split
  · rfl
  · split
    · rfl
    · refine follow_agree h fun front hfront hplace => ?_
      refine havoid ⟨front.filter (· ≠ "."), ?_, ?_⟩
      · rw [parts_ofText]
        exact hfront.filter _
      · rw [locate, foldl_next_filter, hplace]

theorem item?_agree (h : AgreeBut place files others) (havoid : ¬IsAbove p place) :
    files.item? (locate p) = others.item? (locate p) := by
  refine h _ ?_
  rintro rfl
  exact havoid (isAbove_locate p)

theorem read_agree (h : AgreeBut place files others) (havoid : ¬IsAbove p place) :
    files.read p = others.read p := by
  rw [read, read, place_agree h havoid]
  cases hplace : others.place p with
  | error error => rfl
  | ok found =>
    obtain rfl := place_eq_ok hplace
    simp only [bind, Except.bind, item?_agree h havoid]

/-- A name that leads somewhere leads to the place of its path. -/
theorem locate_of_placeOfName {found : Location} (h : files.placeOfName name = .ok found) :
    found = locate (.ofText name) :=
  place_eq_ok (place_ofText h)

theorem readName_agree (h : AgreeBut place files others) (havoid : ¬IsAbove (.ofText name) place) :
    files.readName name = others.readName name := by
  rw [readName, readName, placeOfName_agree h havoid]
  cases hplace : others.placeOfName name with
  | error error => rfl
  | ok found =>
    obtain rfl := locate_of_placeOfName hplace
    simp only [bind, Except.bind, item?_agree h havoid]

theorem itemOfName_agree (h : AgreeBut place files others)
    (havoid : ¬IsAbove (.ofText name) place) : files.itemOfName name = others.itemOfName name := by
  rw [itemOfName, itemOfName, placeOfName_agree h havoid]
  cases hplace : others.placeOfName name with
  | error error => rfl
  | ok found =>
    obtain rfl := locate_of_placeOfName hplace
    simp only [bind, Except.bind, item?_agree h havoid]

theorem isDirectory_agree (h : AgreeBut place files others) (havoid : ¬IsAbove p place) :
    files.isDirectory p = others.isDirectory p := by
  rw [isDirectory, isDirectory, place_agree h havoid]
  cases hplace : others.place p with
  | error error => rfl
  | ok found =>
    obtain rfl := place_eq_ok hplace
    simp only [item?_agree h havoid]

/-- The same thing put at the same place keeps files in agreement. -/
theorem AgreeBut.put {found : Location} (h : AgreeBut place files others) (item : Item)
    (hfree : files.item? found ≠ some .directory) (hfree' : others.item? found ≠ some .directory) :
    AgreeBut place (files.put found item) (others.put found item) := by
  intro other hother
  rw [item?_put _ _ hfree, item?_put _ _ hfree', h other hother]

/-- What is put at a place changes nothing elsewhere. -/
theorem agreeBut_put (item : Item) (hfree : files.item? place ≠ some .directory) :
    AgreeBut place files (files.put place item) := by
  intro other hother
  rw [item?_put _ _ hfree, if_neg hother]

end Agreement

/-! ### Actions that leave a place alone -/

/-- However files that agree but at a place are told apart there, an action ends in the same way on
them, what it leaves agrees again, and the place is left as it was. -/
def Alike {ε α : Type} (place : Location) (x : ExceptT ε (StateM Files) α) : Prop :=
  ∀ files others, AgreeBut place files others →
    (x.run files).1 = (x.run others).1 ∧ AgreeBut place (x.run files).2 (x.run others).2 ∧
      (x.run files).2.item? place = files.item? place

section Alike

variable {α β : Type} {place : Location} {p : FilePath}

theorem alike_pure (a : α) : Alike place (pure a : FileAction α) :=
  fun _ _ h => ⟨rfl, h, rfl⟩

/-- The two runs of such an action, side by side. -/
theorem Alike.exists_run {ε : Type} {x : ExceptT ε (StateM Files) α} {files others : Files}
    (hx : Alike place x) (h : AgreeBut place files others) :
    ∃ result after after', x.run files = (result, after) ∧ x.run others = (result, after') ∧
      AgreeBut place after after' ∧ after.item? place = files.item? place := by
  obtain ⟨hsame, hagree, hstays⟩ := hx files others h
  exact ⟨(x.run files).1, (x.run files).2, (x.run others).2, rfl, Prod.ext hsame.symm rfl, hagree,
    hstays⟩

theorem Alike.bind {x : FileAction α} {f : α → FileAction β} (hx : Alike place x)
    (hf : ∀ a, Alike place (f a)) : Alike place (x >>= f) := by
  intro files others h
  obtain ⟨result, after, after', hrun, hrun', hagree, hstays⟩ := hx.exists_run h
  rw [run_bind, run_bind, hrun, hrun']
  cases result with
  | error error => exact ⟨rfl, hagree, hstays⟩
  | ok a =>
    obtain ⟨hsame', hagree', hstays'⟩ := hf a after after' hagree
    exact ⟨hsame', hagree', hstays'.trans hstays⟩

theorem Alike.tryCatch {x : FileAction α} {handle : FileError → FileAction α} (hx : Alike place x)
    (hhandle : ∀ error, Alike place (handle error)) : Alike place (tryCatch x handle) := by
  intro files others h
  obtain ⟨result, after, after', hrun, hrun', hagree, hstays⟩ := hx.exists_run h
  rw [FileAction.run_tryCatch, FileAction.run_tryCatch, hrun, hrun']
  cases result with
  | error error =>
    obtain ⟨hsame', hagree', hstays'⟩ := hhandle error after after' hagree
    exact ⟨hsame', hagree', hstays'.trans hstays⟩
  | ok a => exact ⟨rfl, hagree, hstays⟩

/-- What a path avoids is left as it was by putting something at the path. -/
theorem item?_put_of_avoids {files : Files} (item : Item) (havoid : ¬IsAbove p place)
    (hfree : files.item? (locate p) ≠ some .directory) :
    (files.put (locate p) item).item? place = files.item? place := by
  rw [item?_put _ _ hfree, if_neg]
  rintro rfl
  exact havoid (isAbove_locate p)

theorem alike_makeDirectory (havoid : ¬IsAbove p place) : Alike place (makeDirectory p) := by
  intro files others h
  rw [makeDirectory_run, makeDirectory_run, place_agree h havoid]
  cases hplace : others.place p with
  | error error => exact ⟨rfl, h, rfl⟩
  | ok found =>
    obtain rfl := place_eq_ok hplace
    have hsame := item?_agree h havoid
    dsimp only
    rw [hsame]
    cases hitem : others.item? (locate p) with
    | some item => exact ⟨rfl, h, rfl⟩
    | none =>
      have hfree : files.item? (locate p) ≠ some .directory := by simp [hsame, hitem]
      exact ⟨rfl, h.put .directory hfree (by simp [hitem]), item?_put_of_avoids _ havoid hfree⟩

theorem alike_tolerate (havoid : ¬IsAbove p place) (error : FileError) :
    Alike place (tolerate p error) := by
  intro files others h
  rw [tolerate_run, tolerate_run, isDirectory_agree h havoid]
  exact ⟨rfl, h, rfl⟩

theorem alike_ensureBackwards {absolute : Bool} {backwards : List String}
    (havoid : ¬IsAbove ⟨absolute, backwards.reverse⟩ place) :
    Alike place (ensureBackwards absolute backwards) := by
  induction backwards with
  | nil => exact alike_pure ()
  | cons part before ih =>
    have hmake := alike_makeDirectory havoid
    -- what lies above a path that avoids the place avoids it as well
    have habove : Alike place (ensureBackwards absolute before) := by
      refine ih fun ⟨front, hfront, hplace⟩ => havoid ⟨front, ?_, hplace⟩
      rw [List.reverse_cons]
      exact hfront.trans (List.prefix_append _ _)
    rw [ensureBackwards]
    refine hmake.tryCatch fun error => ?_
    split
    · exact habove.bind fun _ => hmake.tryCatch (alike_tolerate havoid)
    · exact alike_tolerate havoid error

theorem alike_ensureDirectory (havoid : ¬IsAbove p place) : Alike place (ensureDirectory p) :=
  alike_ensureBackwards (by rwa [List.reverse_reverse])

theorem alike_write (havoid : ¬IsAbove p place) (bytes : List UInt8) :
    Alike place (write p bytes) := by
  intro files others h
  rw [write_run, write_run, place_agree h havoid]
  cases hplace : others.place p with
  | error error => exact ⟨rfl, h, rfl⟩
  | ok found =>
    obtain rfl := place_eq_ok hplace
    have hsame := item?_agree h havoid
    dsimp only
    rw [hsame]
    by_cases hdirectory : others.item? (locate p) = some .directory
    · rw [hdirectory]
      exact ⟨rfl, h, rfl⟩
    · have hfree : files.item? (locate p) ≠ some .directory := by rwa [hsame]
      split
      · contradiction
      · exact ⟨rfl, h.put _ hfree hdirectory, item?_put_of_avoids _ havoid hfree⟩

theorem alike_writeBelow (havoid : ¬IsAbove p place) (bytes : List UInt8) :
    Alike place (writeBelow p bytes) := by
  have habove : ¬IsAbove p.parent place := by
    rintro ⟨front, hfront, hplace⟩
    exact havoid ⟨front, hfront.trans (List.dropLast_prefix _), hplace⟩
  exact (alike_ensureDirectory habove).bind fun _ => alike_write havoid bytes

end Alike

end Files

end Stanza
