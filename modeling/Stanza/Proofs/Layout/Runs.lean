import Stanza.Proofs.Fault.Leads
import Stanza.Proofs.Layout.Heading

/-!
Assignments and their runs.

With alignment on, equals signs line up in each maximal run of assignments on one line: there every
key is padded to the longest one (`align_of_isMaximalRun`), and elsewhere none is
(`getElem?_align`). Nothing else sets the texts apart from those with alignment off
(`render_runs`).

Whether an assignment is on one line is a matter of what its value is (`isSingle_layout_iff`), as
long as no name or raw expression in it has a line feed: line feeds in strings are escaped.
-/

namespace Stanza

/-- A text is on several lines when there is a line feed in what is written for it. -/
theorem Rendered.newline_mem_write_iff (r : Rendered) (width : Nat) (level : Int) :
    '\n' ∈ r.write width level ↔ r.isSingle = false := by
  obtain ⟨head, tail⟩ := r
  cases tail with
  | nil => simp [write, isSingle]
  | cons line tail => simp [write, isSingle]

namespace Assignment

/-! ### Runs -/

/-- The longest key of some assignments. -/
def longestKey (assignments : List Assignment) : Nat :=
  (assignments.map fun a => a.key.length).foldr max 0

/-- Neighbouring assignments that are on one line each; no such assignment stands right before the
first of them or right behind the last. -/
structure IsMaximalRun (above run below : List Assignment) : Prop where
  single : ∀ a ∈ run, a.value.isSingle = true
  above : ∀ a, above.getLast? = some a → a.value.isSingle = false
  below : ∀ a, below.head? = some a → a.value.isSingle = false

variable {a : Assignment} {assignments above run below : List Assignment}

theorem align_cons_of_single (h : a.value.isSingle = true) (width : Nat)
    (rest : List Assignment) :
    align width (a :: rest) = a.render (max width (runWidth (a :: rest))) ::
      align (max width (runWidth (a :: rest))) rest := by
  rw [align, if_pos h]

theorem align_cons_of_not_single (h : a.value.isSingle = false) (width : Nat)
    (rest : List Assignment) : align width (a :: rest) = a.render 0 :: align 0 rest := by
  rw [align, if_neg (by simp [h])]

/-- A run ends where a value takes several lines. -/
theorem runWidth_append (h : ∀ a, below.head? = some a → a.value.isSingle = false) :
    runWidth (above ++ below) = runWidth above := by
  induction above with
  | nil =>
    cases below with
    | nil => rfl
    | cons b below => simp [runWidth, h b rfl]
  | cons a above ih => rw [List.cons_append, runWidth, runWidth, ih]

/-- What is above a value of several lines has nothing to do with what is below it. -/
theorem align_append (h : ∀ a, below.head? = some a → a.value.isSingle = false) (width : Nat) :
    align width (above ++ below) = align width above ++ align 0 below := by
  induction above generalizing width with
  | nil =>
    cases below with
    | nil => rfl
    | cons b below => simp [align, h b rfl]
  | cons a above ih =>
    have hwidth : runWidth (a :: above ++ below) = runWidth (a :: above) := runWidth_append h
    by_cases hsingle : a.value.isSingle = true
    · rw [List.cons_append] at hwidth ⊢
      rw [align_cons_of_single hsingle, align_cons_of_single hsingle, hwidth, ih, List.cons_append]
    · rw [Bool.not_eq_true] at hsingle
      rw [List.cons_append, align_cons_of_not_single hsingle, align_cons_of_not_single hsingle, ih,
        List.cons_append]

theorem runWidth_eq_longestKey (h : ∀ a ∈ run, a.value.isSingle = true) :
    runWidth run = longestKey run := by
  induction run with
  | nil => rfl
  | cons a run ih =>
    obtain ⟨ha, hrun⟩ := List.forall_mem_cons.mp h
    rw [runWidth, if_pos ha, ih hrun]
    rfl

theorem align_of_forall_single (h : ∀ a ∈ run, a.value.isSingle = true) (width : Nat) :
    align width run = run.map (render (max width (longestKey run))) := by
  induction run generalizing width with
  | nil => rfl
  | cons a run ih =>
    obtain ⟨ha, hrun⟩ := List.forall_mem_cons.mp h
    have hwide : longestKey run ≤ max width (longestKey (a :: run)) :=
      (le_max_right a.key.length (longestKey run)).trans (le_max_right width _)
    rw [align_cons_of_single ha, runWidth_eq_longestKey h, ih hrun, max_eq_left hwide,
      List.map_cons]

/-- The equals signs of a maximal run line up behind the longest key. -/
theorem align_of_isMaximalRun (h : IsMaximalRun above run below) :
    align 0 (above ++ run ++ below) =
      align 0 above ++ run.map (render (longestKey run)) ++ align 0 below := by
  have hrun : align 0 run = run.map (render (longestKey run)) := by
    rw [align_of_forall_single h.single, Nat.zero_max]
  -- what ends right before the run takes several lines, so the run starts afresh
  have habove : align 0 (above ++ run) = align 0 above ++ align 0 run := by
    rcases List.eq_nil_or_concat' above with rfl | ⟨front, last, rfl⟩
    · rfl
    · have hlast : last.value.isSingle = false := h.above last (by simp)
      have hhead : ∀ rest a, (last :: rest).head? = some a → a.value.isSingle = false := by
        rintro rest a ⟨⟩
        exact hlast
      rw [List.append_assoc, List.singleton_append, align_append (hhead run),
        align_append (hhead []), align_cons_of_not_single hlast, align_cons_of_not_single hlast,
        List.append_assoc]
      rfl
  rw [align_append h.below, habove, hrun]

/-- The key of a value of several lines is not padded. -/
theorem getElem?_align {i : Nat} (h : assignments[i]? = some a) (hsingle : a.value.isSingle = false)
    (width : Nat) : (align width assignments)[i]? = some (a.render 0) := by
  induction assignments generalizing i width with
  | nil => simp at h
  | cons first rest ih =>
    cases i with
    | zero =>
      obtain rfl : first = a := by simpa using h
      rw [align_cons_of_not_single hsingle]
      rfl
    | succ i =>
      rw [List.getElem?_cons_succ] at h
      rw [align]
      split
      · exact ih h _
      · exact ih h 0

/-- An assignment on one line stands in a maximal run. -/
theorem exists_isMaximalRun {i : Nat} (h : assignments[i]? = some a)
    (hsingle : a.value.isSingle = true) :
    ∃ above run below, assignments = above ++ run ++ below ∧ IsMaximalRun above run below ∧
      above.length ≤ i ∧ i < above.length + run.length := by
  induction assignments generalizing i with
  | nil => simp at h
  | cons first rest ih =>
    cases i with
    | zero =>
      obtain rfl : first = a := by simpa using h
      let isSingle := fun a : Assignment => a.value.isSingle
      refine ⟨[], (first :: rest).takeWhile isSingle, (first :: rest).dropWhile isSingle, ?_,
        ⟨?_, by simp, ?_⟩, le_rfl, ?_⟩
      · simp
      · intro b hb
        exact List.mem_takeWhile_imp (p := isSingle) hb
      · intro b hb
        have hnot := List.head?_dropWhile_not isSingle (first :: rest)
        rw [hb] at hnot
        simpa using hnot
      · simp [isSingle, hsingle]
    | succ i =>
      rw [List.getElem?_cons_succ] at h
      obtain ⟨above, run, below, rfl, hrun, hlow, hhigh⟩ := ih h
      rcases List.eq_nil_or_concat' above with rfl | ⟨front, last, rfl⟩
      · by_cases hfirst : first.value.isSingle = true
        · refine ⟨[], first :: run, below, rfl, ⟨?_, by simp, hrun.below⟩, Nat.zero_le _, ?_⟩
          · exact List.forall_mem_cons.mpr ⟨hfirst, hrun.single⟩
          · simp at hhigh ⊢
            omega
        · refine ⟨[first], run, below, rfl, ⟨hrun.single, ?_, hrun.below⟩, ?_, ?_⟩
          · simpa using hfirst
          · simp
          · simp at hhigh ⊢
            omega
      · refine ⟨first :: (front ++ [last]), run, below, rfl,
          ⟨hrun.single, ?_, hrun.below⟩, ?_, ?_⟩
        · intro b hb
          rw [← List.cons_append, List.getLast?_concat] at hb
          exact hrun.above b (by rwa [List.getLast?_concat])
        · simp at hlow ⊢
          omega
        · simp at hhigh ⊢
          omega

/-! ### Entries -/

/-- What is written for an assignment at a level, its key padded to a column. -/
def entry (width : Nat) (level : Int) (column : Nat) (a : Assignment) : List Char :=
  indent width level ++ pad column a.key ++ [' ', '=', ' '] ++ a.value.write width level

/-- What is written for some assignments at a level, a text for each. -/
def entries (style : Style) (width : Nat) (level : Int) (assignments : List Assignment) :
    List (List Char) :=
  (renderAll style assignments).map fun r => indent width level ++ r.write width level

theorem write_render (width : Nat) (level : Int) (column : Nat) (a : Assignment) :
    indent width level ++ (a.render column).write width level = a.entry width level column := by
  simp [render, Rendered.lead, Rendered.write, entry]

theorem length_entries (style : Style) (width : Nat) (level : Int)
    (assignments : List Assignment) :
    (entries style width level assignments).length = assignments.length := by
  rw [entries, List.length_map, ← (forall₂_renderAll style assignments).length_eq]

section Entries

variable {style : Style} {width : Nat} {level : Int} {i : Nat}

/-- With alignment off no key is padded. -/
theorem getElem?_entries_plain (hstyle : style.alignEquals = false)
    (h : assignments[i]? = some a) :
    (entries style width level assignments)[i]? = some (a.entry width level 0) := by
  simp [entries, renderAll, hstyle, h, write_render]

theorem getElem?_entries_of_not_single (h : assignments[i]? = some a)
    (hsingle : a.value.isSingle = false) :
    (entries style width level assignments)[i]? = some (a.entry width level 0) := by
  by_cases hstyle : style.alignEquals = true
  · rw [entries, renderAll, if_pos hstyle, List.getElem?_map, getElem?_align h hsingle,
      Option.map_some, write_render]
  · exact getElem?_entries_plain (by simpa using hstyle) h

theorem getElem?_entries_of_isMaximalRun (hstyle : style.alignEquals = true)
    (hrun : IsMaximalRun above run below) (h : run[i]? = some a) :
    (entries style width level (above ++ run ++ below))[above.length + i]? =
      some (a.entry width level (longestKey run)) := by
  have hlength : (align 0 above).length = above.length := by
    have hall := (forall₂_renderAll style above).length_eq
    rw [renderAll, if_pos hstyle] at hall
    exact hall.symm
  have hi : i < run.length := (List.getElem?_eq_some_iff.mp h).1
  rw [entries, renderAll, if_pos hstyle, align_of_isMaximalRun hrun, List.getElem?_map,
    List.append_assoc, List.getElem?_append_right (by omega), hlength, Nat.add_sub_cancel_left,
    List.getElem?_append_left (by simpa using hi), List.getElem?_map, h, Option.map_some,
    Option.map_some, write_render]

/-- How assignments are written with their equals signs lined up, compared to how they are written
with alignment off. -/
structure AreAligned (style : Style) (width : Nat) (level : Int)
    (assignments : List Assignment) : Prop where
  /-- Each assignment has an entry. -/
  length : (entries style width level assignments).length = assignments.length
  /-- With alignment off, every key has its equals sign right behind it. -/
  plain : ∀ (i : Nat) (a : Assignment), assignments[i]? = some a →
    (entries { style with alignEquals := false } width level assignments)[i]? =
      some (indent width level ++ a.key ++ [' ', '=', ' '] ++ a.value.write width level)
  /-- It has it there as well when the value takes several lines. -/
  several : ∀ (i : Nat) (a : Assignment), assignments[i]? = some a → a.value.isSingle = false →
    (entries style width level assignments)[i]? =
      (entries { style with alignEquals := false } width level assignments)[i]?
  /-- Every other assignment stands in a maximal run. -/
  single : ∀ (i : Nat) (a : Assignment), assignments[i]? = some a → a.value.isSingle = true →
    ∃ above run below, assignments = above ++ run ++ below ∧ IsMaximalRun above run below ∧
      above.length ≤ i ∧ i < above.length + run.length
  /-- In a maximal run every key is padded to the longest. -/
  run : ∀ above run below, assignments = above ++ run ++ below → IsMaximalRun above run below →
    ∀ (i : Nat) (a : Assignment), run[i]? = some a →
      (entries style width level assignments)[above.length + i]? =
        some (indent width level ++ pad (longestKey run) a.key ++ [' ', '=', ' '] ++
          a.value.write width level)

theorem areAligned (hstyle : style.alignEquals = true) (width : Nat) (level : Int)
    (assignments : List Assignment) :
    AreAligned style width level assignments where
  length := length_entries style width level assignments
  plain i a h := by
    rw [getElem?_entries_plain rfl h, entry, pad, Nat.zero_sub, List.replicate_zero,
      List.append_nil]
  several i a h hsingle := by
    rw [getElem?_entries_of_not_single h hsingle, getElem?_entries_plain rfl h]
  single i a h hsingle := exists_isMaximalRun h hsingle
  run above run below hassignments hrun i a h := by
    rw [hassignments, getElem?_entries_of_isMaximalRun hstyle hrun h, entry]

end Entries

end Assignment

/-! ### Values on one line -/

namespace Value

variable {style : Style} {v : Value}

/-- A list or a mapping, be it empty or not. A marker is neither. -/
def IsContainer : Value → Prop
  | .list _ | .tuple _ | .sequence _ | .object _ => True
  | .mapping entries => Marker.ofEntries? entries = none
  | _ => False

/-- A value that takes several lines: a mapping with an entry in it, or a list with an item in it
that is a list or a mapping or with more items than the style allows on a line. -/
def IsSpread (style : Style) : Value → Prop
  | .list items | .tuple items | .sequence items =>
      items ≠ [] ∧ ((∃ item ∈ items, item.IsContainer) ∨
        ∃ limit, style.inlineMax = some limit ∧ limit < items.length)
  | .mapping entries => entries ≠ [] ∧ Marker.ofEntries? entries = none
  | .object entries => entries ≠ []
  | _ => False

/-- A leaf in which no name and no raw expression has a line feed. -/
def IsUnbroken : Value → Prop
  | .reference (.text name) => '\n' ∉ name.toList
  | .raw (.text s) => '\n' ∉ s.toList
  | .template segments => ∀ name, .reference (.text name) ∈ segments → '\n' ∉ name.toList
  | _ => True

/-- What is written for such a leaf has no line feed in it, whatever the strings. -/
theorem newline_not_mem_leafChars (hwritten : v.IsLeaf) (h : v.IsUnbroken) :
    '\n' ∉ v.leafChars := by
  rcases isScalar_or_of_isLeaf hwritten with
    hscalar | ⟨s, rfl⟩ | ⟨s, rfl⟩ | ⟨segments, rfl⟩ | ⟨w, rfl, hscalar⟩
  · rw [(leaf_of_isScalar hscalar Double.written).2]
    exact (isQuiet_scalarChars hscalar).unbroken
  · exact newline_not_mem_referenceChars h
  · exact h
  · have hbody : '\n' ∉ Template.body segments := Template.newline_not_mem_body h
    simpa [leafChars] using hbody
  · exact (isQuiet_scalarChars hscalar).unbroken

/-- A value that is written as a leaf has one leaf. -/
theorem exists_leaf {text : List Char} (hshape : v.shape = .leaf text) (hwritten : v.IsWritten) :
    ∃ leaf, v.leaves = [leaf] ∧ leaf.IsLeaf ∧ text = leaf.leafChars := by
  match v with
  | .list _ | .tuple _ | .sequence _ | .object _ => simp [shape] at hshape
  | .mapping entries =>
    rw [shape] at hshape
    rw [IsWritten] at hwritten
    rw [leaves]
    cases hmarker : Marker.ofEntries? entries with
    | some found =>
      obtain ⟨marker, payload⟩ := found
      simp only [hmarker, Shape.leaf.injEq] at hshape hwritten ⊢
      exact ⟨_, rfl, hwritten, hshape.symm⟩
    | none => simp [hmarker] at hshape
  | .null | .bool _ | .int _ | .float _ | .text _ | .bytes _ | .buffer _ | .set _ | .date _
  | .moment _ | .foreign _ | .reference _ | .raw _ | .template _ | .literal _ | .block .. =>
    exact ⟨_, rfl, hwritten, (Shape.leaf.inj hshape).symm⟩

theorem newline_not_mem_of_shape {text : List Char} (hshape : v.shape = .leaf text)
    (hwritten : v.IsWritten) (h : ∀ leaf ∈ v.leaves, leaf.IsUnbroken) : '\n' ∉ text := by
  obtain ⟨leaf, hleaves, hleaf, rfl⟩ := exists_leaf hshape hwritten
  exact newline_not_mem_leafChars hleaf (h leaf (by simp [hleaves]))

theorem isInline_eq_false_iff : v.isInline = false ↔ v.IsContainer := by
  cases v <;> simp [isInline, IsContainer, Marker.isMarker]

/-- A list leaves the line for an item that is a list or a mapping, or for being too long. -/
theorem staysOnLine_eq_false_iff {items : List Value} :
    staysOnLine style items = false ↔
      (∃ item ∈ items, item.IsContainer) ∨
        ∃ limit, style.inlineMax = some limit ∧ limit < items.length := by
  have hfits : style.fits items.length = false ↔
      ∃ limit, style.inlineMax = some limit ∧ limit < items.length := by
    unfold Style.fits
    cases style.inlineMax <;> simp
  rw [staysOnLine, Bool.and_eq_false_iff, hfits, List.all_eq_false]
  simp only [Bool.not_eq_true, isInline_eq_false_iff]

end Value

namespace Rendered

theorem isSingle_inline {text : List Char} (h : '\n' ∉ text) : (inline text).isSingle = true := by
  simpa [isSingle, inline] using h

/-- A list that is not empty takes several lines if it does not stay on one. -/
theorem isSingle_ofItems_eq_false_iff {items : List Rendered} {isOneLine : Bool}
    (h : isOneLine = true → ∀ item ∈ items, '\n' ∉ item.head) :
    (ofItems isOneLine items).isSingle = false ↔ items ≠ [] ∧ isOneLine = false := by
  cases items with
  | nil => simp [ofItems, isSingle, inline]
  | cons item rest =>
    cases isOneLine with
    | false => simp [ofItems, isSingle]
    | true =>
      have hinside : '\n' ∉ joined [',', ' '] ((item :: rest).map Rendered.head) := by
        intro hmem
        rcases mem_joined hmem with hmem | ⟨head, hhead, hmem⟩
        · simp at hmem
        · obtain ⟨found, hfound, rfl⟩ := List.mem_map.mp hhead
          exact h rfl found hfound hmem
      have hsingle : (ofItems true (item :: rest)).isSingle = true :=
        isSingle_inline (by simpa using hinside)
      simp [hsingle]

theorem isSingle_ofAssignments_eq_false_iff (style : Style) (assignments : List Assignment) :
    (ofAssignments style assignments).isSingle = false ↔ assignments ≠ [] := by
  cases assignments <;> simp [ofAssignments, isSingle, inline]

end Rendered

namespace Value

variable {style : Style} {v : Value}

theorem newline_not_mem_head_layoutItems {items : List Value} (hwritten : AreWritten items)
    (h : ∀ leaf ∈ itemLeaves items, leaf.IsUnbroken) (hinline : ∀ item ∈ items, item.isInline) :
    ∀ r ∈ Shape.layoutItems style (itemShapes items), '\n' ∉ r.head := by
  induction items with
  | nil => simp [itemShapes, Shape.layoutItems]
  | cons item rest ih =>
    rw [itemLeaves, List.forall_mem_append] at h
    obtain ⟨hitem, hrest⟩ := List.forall_mem_cons.mp hinline
    obtain ⟨text, hshape⟩ := exists_shape_eq_leaf hitem
    rw [itemShapes, Shape.layoutItems, List.forall_mem_cons, hshape, Shape.layout]
    exact ⟨newline_not_mem_of_shape hshape hwritten.1 h.1, ih hwritten.2 h.2 hrest⟩

/-- A list takes several lines when it is not empty and does not stay on one. -/
theorem isSingle_layout_list {items : List Value} (hwritten : AreWritten items)
    (h : ∀ leaf ∈ itemLeaves items, leaf.IsUnbroken) :
    ((Shape.list (itemShapes items)).layout style).isSingle = false ↔
      items ≠ [] ∧ ((∃ item ∈ items, item.IsContainer) ∨
        ∃ limit, style.inlineMax = some limit ∧ limit < items.length) := by
  have hempty : Shape.layoutItems style (itemShapes items) ≠ [] ↔ items ≠ [] := by
    cases items <;> simp [itemShapes, Shape.layoutItems]
  rw [Shape.layout, ← staysOnLine_eq, Rendered.isSingle_ofItems_eq_false_iff, hempty,
    staysOnLine_eq_false_iff]
  intro hstays
  rw [staysOnLine, Bool.and_eq_true, List.all_eq_true] at hstays
  exact newline_not_mem_head_layoutItems hwritten h hstays.1

theorem isSingle_layout_object (style : Style) (entries : Entries) :
    ((Shape.object (entryShapes entries)).layout style).isSingle = false ↔ entries ≠ [] := by
  have hempty : Shape.layoutEntries style (entryShapes entries) ≠ [] ↔ entries ≠ [] := by
    cases entries <;> simp [entryShapes, Shape.layoutEntries]
  rw [Shape.layout, Rendered.isSingle_ofAssignments_eq_false_iff, hempty]

theorem not_isSpread_of_isInline (h : v.isInline) : ¬ v.IsSpread style := by
  cases v
  case mapping entries =>
    rintro ⟨-, hmarker⟩
    simp [isInline, Marker.isMarker, hmarker] at h
  case list | tuple | sequence | object => simp [isInline] at h
  all_goals exact id

/-- **Which values take several lines.** It is a matter of what a value is and of the style, and of
no string in it. -/
theorem isSingle_layout_iff (hwritten : v.IsWritten) (h : ∀ leaf ∈ v.leaves, leaf.IsUnbroken) :
    (v.shape.layout style).isSingle = false ↔ v.IsSpread style := by
  by_cases hinline : v.isInline
  · obtain ⟨text, hshape⟩ := exists_shape_eq_leaf hinline
    have hsingle := Rendered.isSingle_inline (newline_not_mem_of_shape hshape hwritten h)
    simp [hshape, Shape.layout, hsingle, not_isSpread_of_isInline hinline]
  · match v with
    | .list items | .tuple items | .sequence items => exact isSingle_layout_list hwritten h
    | .object entries => exact isSingle_layout_object style entries
    | .mapping entries =>
      have hmarker : Marker.ofEntries? entries = none := by
        simpa [isInline, Marker.isMarker] using hinline
      rw [shape, hmarker, isSingle_layout_object]
      simp [IsSpread, hmarker]
    | .null | .bool _ | .int _ | .float _ | .text _ | .bytes _ | .buffer _ | .set _ | .date _
    | .moment _ | .foreign _ | .reference _ | .raw _ | .template _ | .literal _ | .block .. =>
      exact absurd rfl hinline

/-! ### Assignments of values -/

/-- Values that are each encoded are assigned to their keys in order. -/
theorem exists_renderEntries {path : Path} {pairs : List (List Char × Value × Value)}
    (h : ∀ pair ∈ pairs, ∃ r, pair.2.2.encode style (path ++ [pair.2.1]) = .ok r) :
    ∃ assignments,
      renderEntries style path (pairs.map Prod.fst) (pairs.map Prod.snd) = .ok assignments ∧
      List.Forall₂ (fun pair a => a.key = pair.1 ∧
        pair.2.2.encode style (path ++ [pair.2.1]) = .ok a.value) pairs assignments := by
  induction pairs with
  | nil => exact ⟨[], rfl, .nil⟩
  | cons pair rest ih =>
    obtain ⟨⟨r, hr⟩, hrest⟩ := List.forall_mem_cons.mp h
    obtain ⟨assignments, hassignments, hall⟩ := ih hrest
    refine ⟨⟨pair.1, r⟩ :: assignments, ?_, .cons ⟨rfl, hr⟩ hall⟩
    rw [List.map_cons, List.map_cons, renderEntries_cons]
    exact bind_eq_ok_iff.mpr ⟨r, hr, bind_eq_ok_iff.mpr ⟨assignments, hassignments, rfl⟩⟩

/-- **Equals signs line up in maximal runs.** When each value is encoded, the assignments of the
values are written as `Assignment.AreAligned` says, at every level. A value is on one line when no
line feed is written for it. Unless a name or a raw expression has one in it, it takes several
lines just when it is a mapping or a list of the kind that does. -/
theorem render_runs {path : Path} {pairs : List (List Char × Value × Value)}
    (hstyle : style.alignEquals = true)
    (h : ∀ pair ∈ pairs, ∃ r, pair.2.2.encode style (path ++ [pair.2.1]) = .ok r) :
    ∃ assignments,
      renderEntries style path (pairs.map Prod.fst) (pairs.map Prod.snd) = .ok assignments ∧
      (∀ width level, Assignment.AreAligned style width level assignments) ∧
      List.Forall₂ (fun (key, pathKey, value) a =>
        a.key = key ∧ value.encode style (path ++ [pathKey]) = .ok a.value ∧
        (∀ width level, a.value.isSingle = true ↔ '\n' ∉ a.value.write width level) ∧
        ((∀ leaf ∈ value.leaves, leaf.IsUnbroken) →
          (a.value.isSingle = false ↔ value.IsSpread style))) pairs assignments := by
  obtain ⟨assignments, hassignments, hall⟩ := exists_renderEntries h
  refine ⟨assignments, hassignments, ?_, hall.imp ?_⟩
  · intro width level
    exact Assignment.areAligned hstyle width level assignments
  · rintro ⟨key, pathKey, value⟩ a ⟨hkey, hencode⟩
    refine ⟨hkey, hencode, ?_, ?_⟩
    · intro width level
      rw [Rendered.newline_mem_write_iff, Bool.not_eq_false]
    · intro hunbroken
      obtain ⟨_, -, hrender⟩ := bind_eq_ok_iff.mp hencode
      obtain ⟨hwritten, hlayout⟩ := render_eq_ok hrender
      rw [hlayout]
      exact isSingle_layout_iff hwritten hunbroken

/-- A run of two keys, of which one has a line feed in its string, a list that takes several lines,
and a run of one key. -/
theorem render_runs_tags :
    let style : Style := { alignEquals := true, inlineMax := some 1 }
    let pairs : List (List Char × Value × Value) :=
      [("ami".toList, .text "ami", .text "x\ny"), ("size".toList, .text "size", .int 1),
        ("tags".toList, .text "tags", .list [.int 1, .int 2]),
        ("longer".toList, .text "longer", .reference (.text "m.o"))]
    style.alignEquals = true ∧
      (∀ pair ∈ pairs, ∃ r, pair.2.2.encode style ([] ++ [pair.2.1]) = .ok r) ∧
      ∃ assignments,
        renderEntries style [] (pairs.map Prod.fst) (pairs.map Prod.snd) = .ok assignments ∧
        Assignment.AreAligned style 2 0 assignments ∧
        Assignment.entries style 2 0 assignments = ["ami  = \"x\\ny\"".toList,
          "size = 1".toList, "tags = [\n  1,\n  2\n]".toList, "longer = m.o".toList] := by
  intro style pairs
  have hencodes : ∀ pair ∈ pairs, ∃ r, pair.2.2.encode style ([] ++ [pair.2.1]) = .ok r := by
    simp only [pairs, List.forall_mem_cons]
    exact ⟨⟨_, rfl⟩, ⟨_, rfl⟩, ⟨_, rfl⟩, ⟨_, rfl⟩, by simp⟩
  obtain ⟨assignments, hassignments, haligned, -⟩ := render_runs rfl hencodes
  refine ⟨rfl, hencodes, assignments, hassignments, haligned 2 0, ?_⟩
  obtain rfl := Except.ok.inj hassignments
  rfl

end Value

end Stanza
