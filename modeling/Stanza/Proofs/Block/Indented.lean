import Stanza.Proofs.Block.Opening

/-!
Text with its indentation put in as it is written.

A block is compiled to lines whose depths count from the line it begins on, and only when lines are
written do the width of the indentation and the level come in. `Outline.print` is the other way to
write a block: it is told the level at every step, and puts the spaces of a line, of an item of a
list and of a closing bracket in as it comes to them. Both ways give the same text
(`Block.writeAll_eq_print`), so nothing but the spaces in front of a line depends on where a block
stands and how far a level is indented: `Block.compile_factors`.

* `Shape.write_layout`: a value.
* `Assignment.renderAll_flat`: equals signs line up in the texts of values as they do in the values.
* `Block.below_eq_flatMap_printRow`: blocks in a row.
-/

namespace Stanza

/-! ### Writing with the level at hand -/

namespace Shape

/-- The text of a list, from those of its items a level further in. -/
def listText (format : Format) (level : Int) (isOneLine : Bool) (items : List (List Char)) :
    List Char :=
  if items.isEmpty then "[]".toList
  else if isOneLine then '[' :: joined [',', ' '] items ++ [']']
  else
    '[' :: '\n' ::
      joined [',', '\n'] (items.map (indent format.indentWidth (level + 1) ++ ·)) ++
      '\n' :: indent format.indentWidth level ++ [']']

/-- The lines of assignments at a level, from their keys and the texts of their values. -/
def assignmentTexts (format : Format) (level : Int) (pairs : List (List Char × List Char)) :
    List (List Char) :=
  (Assignment.renderAll format.toStyle (pairs.map fun pair => ⟨pair.1, .inline pair.2⟩)).map
    fun r => indent format.indentWidth level ++ r.head

/-- The text of an object, from the lines of its assignments a level further in. -/
def objectText (format : Format) (level : Int) (assignments : List (List Char)) : List Char :=
  if assignments.isEmpty then "\x7b\x7d".toList
  else
    '\x7b' :: '\n' :: joined ['\n'] assignments ++
      '\n' :: indent format.indentWidth level ++ ['\x7d']

mutual

/-- The text of a shape that begins on a line of a level. -/
def print (format : Format) (level : Int) : Shape → List Char
  | .leaf text => text
  | .list items =>
      listText format level (items.all isLeaf && format.fits items.length)
        (printItems format (level + 1) items)
  | .object entries =>
      objectText format level
        (assignmentTexts format (level + 1) (printEntries format (level + 1) entries))

/-- The texts of some shapes. -/
def printItems (format : Format) (level : Int) : List Shape → List (List Char)
  | [] => []
  | item :: rest => item.print format level :: printItems format level rest

/-- The keys of some entries, and the texts of their values. -/
def printEntries (format : Format) (level : Int) :
    List (List Char × Shape) → List (List Char × List Char)
  | [] => []
  | (key, value) :: rest => (key, value.print format level) :: printEntries format level rest

end

end Shape

namespace Outline

mutual

/-- The text of a block at a level. -/
def print (format : Format) (level : Int) : Outline → List Char
  | .block keyword labels attributes children =>
      let margin := indent format.indentWidth level
      let header := joined [' '] (keyword :: labels.map Text.Quoted.quote)
      let body := Shape.assignmentTexts format (level + 1)
        (Shape.printEntries format (level + 1) attributes)
      joined ['\n'] ((margin ++ header ++ [' ', '\x7b']) ::
        (body ++ printRow format (level + 1) (!body.isEmpty) children) ++ [margin ++ ['\x7d']])

/-- The texts of blocks in a row, with the empty lines between them. -/
def printRow (format : Format) (level : Int) (follows : Bool) : List Outline → List (List Char)
  | [] => []
  | outline :: rest =>
      (if format.blankLines && follows then [[]] else []) ++
        outline.print format level :: printRow format level true rest

end

end Outline

/-! ### Values -/

theorem joined_cons (separator text : List Char) (rest : List (List Char)) :
    joined separator (text :: rest) = text ++ rest.flatMap (separator ++ ·) := by
  simpa using joined_append_cons separator [] rest text

/-- Texts below each other are a line feed and the texts with line feeds between them. -/
theorem newline_joined {texts : List (List Char)} (h : texts ≠ []) :
    '\n' :: joined ['\n'] texts = texts.flatMap ('\n' :: ·) := by
  cases texts with
  | nil => exact absurd rfl h
  | cons text rest => simp [joined_cons]

namespace Rendered

variable {width : Nat} {level : Int}

/-- A text with its lines written out. -/
def flat (width : Nat) (level : Int) (r : Rendered) : Rendered := .inline (r.write width level)

theorem isSingle_flat (r : Rendered) : (r.flat width level).isSingle = r.isSingle := by
  obtain ⟨head, tail⟩ := r
  cases tail with
  | nil => simp [flat, inline, isSingle, write]
  | cons line rest => simp [flat, inline, isSingle, write]

/-- What is closed stands right behind the last line, unless that is blank. -/
theorem write_close_of_getLast? {after : List Char} {r : Rendered}
    (h : r.tail.getLast? ≠ some .blank) :
    (r.close after).write width level = r.write width level ++ after := by
  obtain ⟨head, tail⟩ := r
  rcases List.eq_nil_or_concat tail with rfl | ⟨above, line, rfl⟩
  · simp [close, write]
  · cases line with
    | blank => simp at h
    | code depth content => simp [close, write, Line.write]

end Rendered

namespace Assignment

variable {width : Nat} {level : Int}

/-- An assignment with the lines of its value written out. -/
def flat (width : Nat) (level : Int) (a : Assignment) : Assignment :=
  ⟨a.key, a.value.flat width level⟩

theorem render_flat (wide : Nat) (a : Assignment) :
    (a.flat width level).render wide = (a.render wide).flat width level := by
  simp [render, flat, Rendered.flat, Rendered.inline, Rendered.lead, Rendered.write]

theorem runWidth_flat (assignments : List Assignment) :
    runWidth (assignments.map (flat width level)) = runWidth assignments := by
  induction assignments with
  | nil => rfl
  | cons a rest ih => simp [runWidth, ih, flat, Rendered.isSingle_flat]

theorem align_flat (wide : Nat) (assignments : List Assignment) :
    align wide (assignments.map (flat width level)) =
      (align wide assignments).map (Rendered.flat width level) := by
  induction assignments generalizing wide with
  | nil => rfl
  | cons a rest ih =>
    have hrun := @runWidth_flat width level (a :: rest)
    rw [List.map_cons] at hrun ⊢
    have hsingle : (a.flat width level).value.isSingle = a.value.isSingle :=
      Rendered.isSingle_flat a.value
    by_cases ha : a.value.isSingle
    · simp only [align, hsingle, if_pos ha, hrun, ih, render_flat, List.map_cons]
    · simp only [align, hsingle, if_neg ha, ih, render_flat, List.map_cons]

/-- Equals signs line up in the written out texts as they do in the lines. -/
theorem renderAll_flat (style : Style) (assignments : List Assignment) :
    renderAll style (assignments.map (flat width level)) =
      (renderAll style assignments).map (Rendered.flat width level) := by
  unfold renderAll
  split
  · exact align_flat 0 assignments
  · simp [render_flat, Function.comp_def]

/-- The lines of some assignments below others. -/
theorem below_lines (format : Format) (level : Int) (assignments : List Assignment) :
    Line.below format.indentWidth level
        ((renderAll format.toStyle assignments).flatMap Rendered.lines) =
      (Shape.assignmentTexts format level (assignments.map fun a =>
        (a.key, a.value.write format.indentWidth level))).flatMap ('\n' :: ·) := by
  have hflat : ((assignments.map fun a => (a.key, a.value.write format.indentWidth level)).map
      fun pair => (⟨pair.1, .inline pair.2⟩ : Assignment)) =
        assignments.map (flat format.indentWidth level) := by
    simp [flat, Rendered.flat]
  rw [Shape.assignmentTexts, hflat, renderAll_flat]
  generalize renderAll format.toStyle assignments = rows
  induction rows with
  | nil => rfl
  | cons r rest ih =>
    rw [List.flatMap_cons, Line.below_append, ih, Rendered.below_lines]
    simp [Rendered.flat, Rendered.inline]

end Assignment

namespace Shape

variable {level : Int}

/-- No layout ends in a blank line. -/
theorem getLast?_tail_layout (style : Style) (shape : Shape) :
    (shape.layout style).tail.getLast? ≠ some .blank := by
  cases shape with
  | leaf text => simp [layout, Rendered.inline]
  | list items =>
    rw [layout, Rendered.ofItems]
    split
    · simp [Rendered.inline]
    · split
      · simp [Rendered.inline]
      · simp
  | object entries =>
    rw [layout, Rendered.ofAssignments]
    split
    · simp [Rendered.inline]
    · simp

/-- The items of a list over several lines. -/
theorem below_itemLines (format : Format) (item : Shape) (rest : List Shape) :
    Line.below format.indentWidth level
        (Rendered.itemLines (layoutItems format.toStyle (item :: rest))) =
      '\n' :: joined [',', '\n'] ((layoutItems format.toStyle (item :: rest)).map fun r =>
        indent format.indentWidth level ++ r.write format.indentWidth level) := by
  induction rest generalizing item with
  | nil => simp [layoutItems, Rendered.itemLines, Rendered.below_lines, joined]
  | cons next rest ih =>
    have hlast := getLast?_tail_layout format.toStyle item
    have hnext := ih next
    rw [layoutItems] at hnext ⊢
    rw [layoutItems, Rendered.itemLines, Line.below_append, hnext, Rendered.below_lines,
      Rendered.write_close_of_getLast? hlast]
    · simp [joined_cons]
    · simp

/-- Leaves are written as their heads. -/
theorem map_head_layoutItems (format : Format) (level : Int) {items : List Shape}
    (h : items.all isLeaf) :
    (layoutItems format.toStyle items).map Rendered.head = printItems format level items := by
  induction items with
  | nil => rfl
  | cons item rest ih =>
    rw [List.all_cons, Bool.and_eq_true] at h
    cases item with
    | leaf text => simp [layoutItems, printItems, layout, print, Rendered.inline, ih h.2]
    | list items => simp [isLeaf] at h
    | object entries => simp [isLeaf] at h

theorem assignmentTexts_eq_nil_iff (format : Format) (level : Int)
    {pairs : List (List Char × List Char)} :
    assignmentTexts format level pairs = [] ↔ pairs = [] := by
  cases pairs with
  | nil =>
    rw [assignmentTexts, Assignment.renderAll]
    split
    · exact ⟨fun _ => rfl, fun _ => rfl⟩
    · exact ⟨fun _ => rfl, fun _ => rfl⟩
  | cons pair rest =>
    rw [assignmentTexts, Assignment.renderAll, List.map_cons, Assignment.align]
    split
    · split
      · simp
      · simp
    · simp

mutual

/-- A value is written the same way with the level at hand. -/
theorem write_layout (format : Format) (level : Int) (shape : Shape) :
    (shape.layout format.toStyle).write format.indentWidth level = shape.print format level := by
  match shape with
  | .leaf text => simp [layout, print, Rendered.inline, Rendered.write]
  | .list [] => rfl
  | .list (item :: rest) =>
    have hitems := map_write_layoutItems format (level + 1) (item :: rest)
    have hsome : (layoutItems format.toStyle (item :: rest)).isEmpty = false := rfl
    have hprinted : (printItems format (level + 1) (item :: rest)).isEmpty = false := rfl
    rw [layout, print, Rendered.ofItems, listText, hsome, hprinted]
    cases hline : (item :: rest).all isLeaf && format.fits (item :: rest).length with
    | true =>
      have hheads := map_head_layoutItems format (level + 1) (Bool.and_eq_true_iff.mp hline).1
      simp only [hheads]
      simp [Rendered.inline, Rendered.write]
    | false =>
      simp only [Bool.false_eq_true, if_false]
      rw [Rendered.write_eq, Line.below_append, Line.below_deepen, below_itemLines, ← hitems]
      simp [Line.below, Line.write, Function.comp_def]
  | .object entries =>
    have hentries := map_write_layoutEntries format (level + 1) entries
    have hbelow := Assignment.below_lines format (level + 1) (layoutEntries format.toStyle entries)
    rw [hentries] at hbelow
    rw [layout, print, Rendered.ofAssignments, objectText]
    cases entries with
    | nil =>
      have hnone := (assignmentTexts_eq_nil_iff format (level + 1)).mpr rfl
      simp [layoutEntries, printEntries, Rendered.inline, Rendered.write, hnone]
    | cons entry rest =>
      have hsome : assignmentTexts format (level + 1)
          (printEntries format (level + 1) (entry :: rest)) ≠ [] := by
        rw [Ne, assignmentTexts_eq_nil_iff]
        exact List.cons_ne_nil _ _
      rw [if_neg (by simp [layoutEntries]), if_neg (by simpa using hsome), Rendered.write_eq,
        Line.below_append, Line.below_deepen, hbelow, ← newline_joined hsome]
      simp [Line.below, Line.write]

theorem map_write_layoutItems (format : Format) (level : Int) (items : List Shape) :
    (layoutItems format.toStyle items).map (Rendered.write format.indentWidth level) =
      printItems format level items := by
  match items with
  | [] => rfl
  | item :: rest =>
    rw [layoutItems, printItems, List.map_cons, write_layout, map_write_layoutItems]

theorem map_write_layoutEntries (format : Format) (level : Int)
    (entries : List (List Char × Shape)) :
    ((layoutEntries format.toStyle entries).map fun a =>
        (a.key, a.value.write format.indentWidth level)) =
      printEntries format level entries := by
  match entries with
  | [] => rfl
  | (key, value) :: rest =>
    rw [layoutEntries, printEntries, List.map_cons, write_layout, map_write_layoutEntries]

end

end Shape

/-! ### Blocks -/

namespace Line

variable {width : Nat} {level : Int}

/-- Lines below others are a line feed and the lines. -/
theorem newline_writeAll {lines : List Line} (h : lines ≠ []) :
    '\n' :: writeAll width level lines = below width level lines := by
  cases lines with
  | nil => exact absurd rfl h
  | cons line rest => simp [writeAll_cons, below]

theorem below_eq_nil_iff {lines : List Line} : below width level lines = [] ↔ lines = [] := by
  cases lines with
  | nil => simp [below]
  | cons line rest => simp [below]

end Line

namespace Block

variable {format : Format}

/-- The lines of attributes at a level, and whether there are any. -/
theorem below_attributes (format : Format) (level : Int) (shapes : List (List Char × Shape)) :
    let texts := Shape.assignmentTexts format level (Shape.printEntries format level shapes)
    let body := (Assignment.renderAll format.toStyle
      (Shape.layoutEntries format.toStyle shapes)).flatMap Rendered.lines
    Line.below format.indentWidth level body = texts.flatMap ('\n' :: ·) ∧
      body.isEmpty = texts.isEmpty := by
  intro texts body
  have hbelow : Line.below format.indentWidth level body = texts.flatMap ('\n' :: ·) := by
    rw [Assignment.below_lines, Shape.map_write_layoutEntries]
  refine ⟨hbelow, ?_⟩
  rw [Bool.eq_iff_iff, List.isEmpty_iff, List.isEmpty_iff, ← Line.below_eq_nil_iff, hbelow]
  cases texts with
  | nil => simp
  | cons text rest => simp

mutual

/-- A block is written the same way with the level at hand. -/
theorem writeAll_eq_print {path : Path} {node : Value} {ls : List Line} (level : Int)
    (h : lines format.toStyle path node = .ok ls) :
    Line.writeAll format.indentWidth level ls = (outline node).print format level := by
  obtain ⟨blockPath, attributes, children, rfl⟩ := exists_eq_block_of_lines h
  obtain ⟨keyword, labels, body, nested, -, -, hpath, -, -, hbody, hnested, rfl⟩ :=
    lines_block_eq_ok h
  obtain ⟨hbelow, hempty⟩ := below_attributes format (level + 1) (attributeShapes attributes)
  rw [← hbody] at hbelow hempty
  have hchildren := below_childLines (level + 1) hnested
  rw [outline, Outline.print, hpath, ← hempty]
  simp only [List.headD_cons, List.tail_cons, List.cons_append, joined_cons, List.flatMap_append]
  rw [Rendered.lines, Line.writeAll_cons, Line.below_append, Line.below_deepen, Line.below_append,
    hbelow, hchildren]
  simp [Line.below, Line.write, Function.comp_def]
termination_by sizeOf node

/-- The children of a block are written below its attributes. -/
theorem below_childLines {path : Path} {follows : Bool} {children : Value} {ls : List Line}
    (level : Int) (h : childLines format.toStyle path follows children = .ok ls) :
    Line.below format.indentWidth level ls =
      (Outline.printRow format level follows (childOutlines children)).flatMap ('\n' :: ·) := by
  match children with
  | .list items | .tuple items | .set items => exact below_itemLines level h
  | .buffer bytes =>
    rw [childLines] at h
    rw [noBlocks_eq_ok h]
    rfl
  | .foreign f =>
    rw [childLines] at h
    rw [noBlocks_eq_ok h]
    rfl
  | .null | .bool _ | .int _ | .float _ | .text _ | .bytes _ | .mapping _ | .date _ | .moment _
  | .reference _ | .raw _ | .template _ | .literal _ | .sequence _ | .object _ | .block .. =>
    obtain rfl : [] = ls := by simpa [childLines] using h
    rfl
termination_by sizeOf children

/-- Blocks in a row, with the empty lines between them. -/
theorem below_itemLines {path : Path} {follows : Bool} {items : List Value} {ls : List Line}
    (level : Int) (h : itemLines format.toStyle path follows items = .ok ls) :
    Line.below format.indentWidth level ls =
      (Outline.printRow format level follows (itemOutlines items)).flatMap ('\n' :: ·) := by
  match items with
  | [] =>
    obtain rfl : [] = ls := by simpa [itemLines] using h
    rfl
  | item :: rest =>
    rw [itemLines] at h
    obtain ⟨first, hfirst, h⟩ := bind_eq_ok_iff.mp h
    obtain ⟨more, hmore, h⟩ := bind_eq_ok_iff.mp h
    obtain rfl : separator format.toStyle follows ++ first ++ more = ls := by
      simpa [pure, Except.pure] using h
    have hitem := writeAll_eq_print level hfirst
    have hothers := below_itemLines level hmore
    rw [itemOutlines, Outline.printRow, Line.below_append, Line.below_append, hothers,
      ← Line.newline_writeAll (lines_ne_nil hfirst), hitem]
    unfold separator
    split
    · simp [Line.below, Line.write]
    · simp [Line.below]
termination_by sizeOf items

end

/-- **Layout factors through depth.** A block that compiles has lines that depend on neither the
width of the indentation nor the level: wherever the block begins and however far a level is
indented, its text is those lines written there, and it is the text one gets with the level at hand
at every step. In whatever place of an attribute the block holds a raw expression, the text of that
stands untouched in the content of one of the lines. -/
theorem compile_factors {format : Format} {level : Int} {node : Value} {text : List Char}
    (h : compile format level node = .ok text) :
    ∃ ls : List Line,
      (∀ other : Format, other.toStyle = format.toStyle → ∀ outset : Int,
        compile other outset node = .ok (Line.writeAll other.indentWidth outset ls) ∧
          (outline node).print other outset = Line.writeAll other.indentWidth outset ls) ∧
      ∀ (opening : Opening) (v : Value) (s : String), v.IsRaw s → opening.fill v = node →
        ∃ above depth front back below,
          ls = above ++ .code depth (front ++ s.toList ++ back) :: below := by
  obtain ⟨ls, hlines, -⟩ := bind_eq_ok_iff.mp h
  refine ⟨ls, fun other hstyle outset => ?_, fun opening v s hraw hnode => ?_⟩
  · rw [← hstyle] at hlines
    exact ⟨by simp [compile, hlines, bind, Except.bind, pure, Except.pure],
      (writeAll_eq_print outset hlines).symm⟩
  · subst hnode
    have hsteady : Steady format.toStyle (· = s.toList) := by
      intro _
      exact ⟨s.toList.contains '\n', fun _ htext => by rw [htext]⟩
    obtain ⟨written, ⟨above, depth, front, back, below, hwritten⟩, hopens⟩ :=
      opening.opens_lines hsteady []
    refine ⟨above, depth, front, back, below, ?_⟩
    rw [hopens v _ ls hraw.shape_eq rfl hlines, hwritten _ rfl]

/-- A block with a list of a list and an object, a raw expression over two lines, and a block. -/
def layeredBlock : Value :=
  .block (.list [.text "a"])
    (.mapping
      [(.text "x", .list [.list [.int 1], .mapping [(.text "$func", .text "f(\n1)")],
        .mapping [(.text "k", .null)]])])
    (.list [.block (.list [.text "b"]) (.mapping []) (.list [])])

/-- A block that begins one level out, where nothing is left of its own indentation. -/
theorem compile_factors_layeredBlock :
    (∃ text, compile {} 0 layeredBlock = .ok text) ∧
      ∃ ls, compile { indentWidth := 3 } (-1) layeredBlock =
          .ok (Line.writeAll 3 (-1) ls) ∧
        Line.writeAll 3 (-1) ls = "a \x7b\nx = [\n   [1],\n   f(\n1),\n   \x7b\n".toList ++
          "      k = null\n   \x7d\n]\n\nb \x7b\n\x7d\n\x7d".toList ∧
        ∃ above depth front back below,
          ls = above ++ .code depth (front ++ "f(\n1)".toList ++ back) :: below := by
  have hcompiles : compile {} 0 layeredBlock =
      .ok ("a \x7b\n  x = [\n    [1],\n    f(\n1),\n    \x7b\n      k = null\n".toList ++
        "    \x7d\n  ]\n\n  b \x7b\n  \x7d\n\x7d".toList) := rfl
  have hwider : compile { indentWidth := 3 } (-1) layeredBlock =
      .ok ("a \x7b\nx = [\n   [1],\n   f(\n1),\n   \x7b\n".toList ++
        "      k = null\n   \x7d\n]\n\nb \x7b\n\x7d\n\x7d".toList) := rfl
  obtain ⟨ls, hlayout, hraw⟩ := compile_factors hcompiles
  have hlines := (hlayout { indentWidth := 3 } rfl (-1)).1
  refine ⟨⟨_, hcompiles⟩, ls, hlines, ?_, ?_⟩
  · rw [hwider] at hlines
    exact (Except.ok.inj hlines).symm
  · let opening : Opening := .here (.list [.text "a"]) [] (.text "x")
      (.item .list [.list [.int 1]] .whole [.mapping [(.text "k", .null)]]) []
      (.list [.block (.list [.text "b"]) (.mapping []) (.list [])])
    exact hraw opening _ _ (.inr rfl) rfl

end Block

end Stanza
