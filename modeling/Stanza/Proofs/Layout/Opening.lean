import Stanza.Proofs.Layout.Lexeme

/-!
Values with an opening.

A `Value.Opening` is a value with one place in it left open: the whole of it, an item of a list, or
the value of an entry. A marker has no openings, since what stands in it is no value of its own.
Whatever leaf is put there, its text comes out as it is, on one line and between the same two texts,
with the same lines above and below; `Opens` says so of lines. All that a layout asks about the leaf
is whether its text has a line feed, and it asks only where equals signs line up (`Steady`).

* `Opens.wrap`, `Opens.deepen`, `Opens.lead`, `Opens.close`: what is done to lines keeps an opening.
* `Assignment.exists_renderAll_append_cons`: how the keys of a row are padded depends on which of
  the values are on one line, and on nothing else about them.
* `Value.Opening.opens_layout`: the opening of a value is one of its layout.
-/

namespace Stanza

/-! ### Openings -/

namespace Value

/-- The ways to write a row of values. -/
inductive Row where
  | list
  | tuple
  | sequence

/-- Some values in a row. -/
def Row.value (items : List Value) : Row → Value
  | .list => .list items
  | .tuple => .tuple items
  | .sequence => .sequence items

/-- A value with a place left open. -/
inductive Opening where
  | whole
  /-- The place is in an item of a row. -/
  | item (row : Row) (before : List Value) (inner : Opening) (after : List Value)
  /-- The place is in an entry of a mapping, which is no marker. -/
  | entry (above : Entries) (key : Value) (inner : Opening) (below : Entries)
      (apart : ∀ v, Marker.ofEntries? (above ++ (key, v) :: below) = none)
  /-- The place is in an entry of an object. -/
  | field (above : Entries) (key : Value) (inner : Opening) (below : Entries)

namespace Opening

/-- The value with another in the open place. -/
def fill (v : Value) : Opening → Value
  | .whole => v
  | .item row before inner after => row.value (before ++ inner.fill v :: after)
  | .entry above key inner below _ => .mapping (above ++ (key, inner.fill v) :: below)
  | .field above key inner below => .object (above ++ (key, inner.fill v) :: below)

/-- The shape of the value with a leaf in the open place. -/
def shape (text : List Char) : Opening → Shape
  | .whole => .leaf text
  | .item _ before inner after =>
      .list (before.map Value.shape ++ inner.shape text :: after.map Value.shape)
  | .entry above key inner below _ | .field above key inner below =>
      .object (entryShapes above ++ (key.keyChars, inner.shape text) :: entryShapes below)

end Opening

theorem itemShapes_eq_map (items : List Value) : itemShapes items = items.map Value.shape := by
  induction items with
  | nil => rfl
  | cons item rest ih => rw [itemShapes, ih, List.map_cons]

theorem entryShapes_append (above below : Entries) :
    entryShapes (above ++ below) = entryShapes above ++ entryShapes below := by
  induction above with
  | nil => rfl
  | cons entry rest ih => rw [List.cons_append, entryShapes, entryShapes, ih, List.cons_append]

theorem Row.shape_value (row : Row) (items : List Value) :
    (row.value items).shape = .list (items.map Value.shape) := by
  rw [← itemShapes_eq_map]
  cases row <;> rfl

/-- Only the text of the leaf in the open place counts. -/
theorem Opening.shape_fill {v : Value} {text : List Char} (h : v.shape = .leaf text)
    (opening : Opening) : (opening.fill v).shape = opening.shape text := by
  induction opening with
  | whole => exact h
  | item row before inner after ih =>
    rw [fill, Row.shape_value, List.map_append, List.map_cons, ih, shape]
  | entry above key inner below apart ih =>
    rw [fill, Value.shape, apart, shape, entryShapes_append, entryShapes, ih]
  | field above key inner below ih =>
    rw [fill, Value.shape, shape, entryShapes_append, entryShapes, ih]

end Value

/-! ### Lines with an opening -/

/-- Whatever text is put in, it comes out as it is, on one line and between the same two texts, with
the same lines above and below. -/
def Opens (allowed : List Char → Prop) (ls : List Char → List Line) : Prop :=
  ∃ above depth front back below, ∀ text, allowed text →
    ls text = above ++ .code depth (front ++ text ++ back) :: below

/-- Where equals signs line up, the texts that are put in are alike as to line feeds. -/
def Steady (style : Style) (allowed : List Char → Prop) : Prop :=
  style.alignEquals → ∃ feeds, ∀ text, allowed text → text.contains '\n' = feeds

namespace Line

/-- A line with something in front of its content. -/
def lead (before : List Char) : Line → Line
  | .blank => .blank
  | .code depth content => .code depth (before ++ content)

/-- A line with something behind its content. -/
def close (after : List Char) : Line → Line
  | .blank => .code 0 after
  | .code depth content => .code depth (content ++ after)

end Line

namespace Rendered

theorem lines_lead {r : Rendered} {first : Line} {rest : List Line} (before : List Char)
    (h : r.lines = first :: rest) : (r.lead before).lines = first.lead before :: rest := by
  obtain ⟨rfl, rfl⟩ := List.cons.inj h
  rfl

theorem lines_close {r : Rendered} {above : List Line} {last : Line} (after : List Char)
    (h : r.lines = above ++ [last]) : (r.close after).lines = above ++ [last.close after] := by
  obtain ⟨head, tail⟩ := r
  cases above with
  | nil =>
    obtain ⟨rfl, rfl⟩ := List.cons.inj h
    rfl
  | cons first above =>
    obtain ⟨rfl, rfl⟩ := List.cons.inj h
    cases last <;> simp [close, lines, Line.close]

theorem itemLines_append_cons (before after : List Rendered) (r : Rendered) :
    itemLines (before ++ r :: after) =
      before.flatMap (fun item => (item.close [',']).lines) ++
        if after.isEmpty then r.lines else (r.close [',']).lines ++ itemLines after := by
  induction before with
  | nil => cases after <;> rfl
  | cons item before ih =>
    rw [List.cons_append, itemLines, ih, List.flatMap_cons, List.append_assoc]
    simp

end Rendered

namespace Opens

variable {allowed : List Char → Prop} {ls : List Char → List Line}

theorem leaf : Opens allowed fun text => [.code 0 text] :=
  ⟨[], 0, [], [], [], fun text _ => by simp⟩

/-- Lines above and below. -/
theorem wrap (h : Opens allowed ls) (above below : List Line) :
    Opens allowed fun text => above ++ ls text ++ below := by
  obtain ⟨before, depth, front, back, after, hls⟩ := h
  refine ⟨above ++ before, depth, front, back, after ++ below, fun text htext => ?_⟩
  simp [hls text htext]

theorem deepen (h : Opens allowed ls) : Opens allowed fun text => (ls text).map Line.deepen := by
  obtain ⟨above, depth, front, back, below, hls⟩ := h
  refine ⟨above.map Line.deepen, depth + 1, front, back, below.map Line.deepen, ?_⟩
  intro text htext
  simp [hls text htext, Line.deepen]

/-- Lines a level further in, between two that are not. -/
theorem enclose (h : Opens allowed ls) (above below : Line) :
    Opens allowed fun text => above :: ((ls text).map Line.deepen ++ [below]) :=
  h.deepen.wrap [above] [below]

theorem congr {others : List Char → List Line} (h : Opens allowed ls)
    (hsame : ∀ text, allowed text → others text = ls text) : Opens allowed others := by
  obtain ⟨above, depth, front, back, below, hls⟩ := h
  exact ⟨above, depth, front, back, below,
    fun text htext => (hsame text htext).trans (hls text htext)⟩

section Renders

variable {r : List Char → Rendered}

theorem lead (h : Opens allowed fun text => (r text).lines) (before : List Char) :
    Opens allowed fun text => ((r text).lead before).lines := by
  obtain ⟨above, depth, front, back, below, hls⟩ := h
  cases above with
  | nil =>
    refine ⟨[], depth, before ++ front, back, below, fun text htext => ?_⟩
    exact (Rendered.lines_lead before (hls text htext)).trans (by simp [Line.lead])
  | cons first above =>
    refine ⟨first.lead before :: above, depth, front, back, below, fun text htext => ?_⟩
    exact Rendered.lines_lead before (hls text htext)

theorem close (h : Opens allowed fun text => (r text).lines) (after : List Char) :
    Opens allowed fun text => ((r text).close after).lines := by
  obtain ⟨above, depth, front, back, below, hls⟩ := h
  rcases List.eq_nil_or_concat below with rfl | ⟨below, last, rfl⟩
  · refine ⟨above, depth, front, back ++ after, [], fun text htext => ?_⟩
    exact (Rendered.lines_close after (hls text htext)).trans (by simp [Line.close])
  · refine ⟨above, depth, front, back, below ++ [last.close after], fun text htext => ?_⟩
    have hlines : (r text).lines =
        (above ++ .code depth (front ++ text ++ back) :: below) ++ [last] := by
      simp [hls text htext]
    exact (Rendered.lines_close after hlines).trans (by simp)

/-- Whether all is on one line does not depend on what is put in. -/
theorem exists_isSingle (h : Opens allowed fun text => (r text).lines)
    (hfeeds : ∃ feeds, ∀ text, allowed text → text.contains '\n' = feeds) :
    ∃ single, ∀ text, allowed text → (r text).isSingle = single := by
  obtain ⟨above, depth, front, back, below, hls⟩ := h
  obtain ⟨feeds, hfeeds⟩ := hfeeds
  cases above with
  | nil =>
    refine ⟨below.isEmpty && !(front.contains '\n' || feeds || back.contains '\n'), ?_⟩
    intro text htext
    obtain ⟨hhead, htail⟩ := List.cons.inj (hls text htext)
    rw [Rendered.isSingle, htail, (Line.code.inj hhead).2, ← hfeeds text htext]
    simp [List.contains_eq_mem, Bool.and_assoc]
  | cons first above =>
    refine ⟨false, fun text htext => ?_⟩
    obtain ⟨-, htail⟩ := List.cons.inj (hls text htext)
    rw [Rendered.isSingle, htail]
    simp

end Renders

end Opens

/-! ### Rows of assignments -/

namespace Assignment

variable {key : List Char} {single : Bool}

theorem exists_runWidth (above below : List Assignment) :
    ∃ width, ∀ value : Rendered, value.isSingle = single →
      runWidth (above ++ ⟨key, value⟩ :: below) = width := by
  induction above with
  | nil =>
    refine ⟨if single then max key.length (runWidth below) else 0, ?_⟩
    rintro value rfl
    rfl
  | cons a above ih =>
    obtain ⟨width, hwidth⟩ := ih
    refine ⟨if a.value.isSingle then max a.key.length width else 0, fun value hvalue => ?_⟩
    rw [List.cons_append, runWidth, hwidth value hvalue]

theorem exists_align_append_cons (above below : List Assignment) (width : Nat) :
    ∃ before wide after, ∀ value : Rendered, value.isSingle = single →
      align width (above ++ ⟨key, value⟩ :: below) =
        before ++ render wide ⟨key, value⟩ :: after := by
  induction above generalizing width with
  | nil =>
    cases hsingle : single with
    | true =>
      let wide := max width (max key.length (runWidth below))
      refine ⟨[], wide, align wide below, fun value hvalue => ?_⟩
      simp [align, runWidth, hvalue, wide]
    | false =>
      refine ⟨[], 0, align 0 below, fun value hvalue => ?_⟩
      simp [align, hvalue]
  | cons a above ih =>
    obtain ⟨run, hrun⟩ := @exists_runWidth key single (a :: above) below
    by_cases ha : a.value.isSingle
    · obtain ⟨before, wide, after, hrest⟩ := ih (max width run)
      refine ⟨a.render (max width run) :: before, wide, after, fun value hvalue => ?_⟩
      have hrun := hrun value hvalue
      rw [List.cons_append] at hrun ⊢
      simp only [align, if_pos ha, hrun, hrest value hvalue, List.cons_append]
    · obtain ⟨before, wide, after, hrest⟩ := ih 0
      refine ⟨a.render 0 :: before, wide, after, fun value hvalue => ?_⟩
      rw [List.cons_append, align, if_neg ha, hrest value hvalue, List.cons_append]

/-- How a row of assignments is written depends on which of the values are on one line, and on
nothing else about them. -/
theorem exists_renderAll_append_cons (style : Style) (above below : List Assignment)
    (key : List Char) (single : Bool) :
    ∃ before wide after, ∀ value : Rendered, (style.alignEquals → value.isSingle = single) →
      renderAll style (above ++ ⟨key, value⟩ :: below) =
        before ++ render wide ⟨key, value⟩ :: after := by
  by_cases halign : style.alignEquals
  · obtain ⟨before, wide, after, hrow⟩ :=
      @exists_align_append_cons key single above below 0
    refine ⟨before, wide, after, fun value hvalue => ?_⟩
    rw [renderAll, if_pos halign, hrow value (hvalue halign)]
  · refine ⟨above.map (render 0), 0, below.map (render 0), fun value _ => ?_⟩
    rw [renderAll, if_neg halign, List.map_append, List.map_cons]

end Assignment

/-! ### Layouts of values with an opening -/

section Layout

variable {style : Style} {allowed : List Char → Prop}

/-- The opening of a value in a row of assignments. -/
theorem Opens.assignments {value : List Char → Rendered} (hsteady : Steady style allowed)
    (h : Opens allowed fun text => (value text).lines) (above below : List Assignment)
    (key : List Char) :
    Opens allowed fun text =>
      (Assignment.renderAll style (above ++ ⟨key, value text⟩ :: below)).flatMap
        Rendered.lines := by
  obtain ⟨single, hsingle⟩ : ∃ single, ∀ text, allowed text →
      style.alignEquals → (value text).isSingle = single := by
    by_cases halign : style.alignEquals
    · obtain ⟨single, hsingle⟩ := h.exists_isSingle (hsteady halign)
      exact ⟨single, fun text htext _ => hsingle text htext⟩
    · exact ⟨false, fun _ _ halign' => absurd halign' halign⟩
  obtain ⟨before, wide, after, hrow⟩ :=
    Assignment.exists_renderAll_append_cons style above below key single
  have hentry := (h.lead (Assignment.pad wide key ++ [' ', '=', ' '])).wrap
    (before.flatMap Rendered.lines) (after.flatMap Rendered.lines)
  refine hentry.congr fun text htext => ?_
  simp [hrow (value text) (hsingle text htext), Assignment.render]

/-- The opening of an item in a list over several lines. -/
theorem Opens.items {item : List Char → Rendered} (h : Opens allowed fun text => (item text).lines)
    (before after : List Rendered) :
    Opens allowed fun text => Rendered.itemLines (before ++ item text :: after) := by
  simp only [Rendered.itemLines_append_cons]
  cases after with
  | nil => simpa using h.wrap (before.flatMap fun r => (r.close [',']).lines) []
  | cons next after =>
    simpa using (h.close [',']).wrap (before.flatMap fun r => (r.close [',']).lines)
      (Rendered.itemLines (next :: after))

namespace Shape

theorem layoutItems_eq_map (items : List Shape) :
    layoutItems style items = items.map (layout style) := by
  induction items with
  | nil => rfl
  | cons item rest ih => rw [layoutItems, ih, List.map_cons]

theorem layoutEntries_append (above below : List (List Char × Shape)) :
    layoutEntries style (above ++ below) =
      layoutEntries style above ++ layoutEntries style below := by
  induction above with
  | nil => rfl
  | cons entry rest ih =>
    rw [List.cons_append, layoutEntries, layoutEntries, ih, List.cons_append]

/-- The opening of a value in an object. -/
theorem opens_object {value : List Char → Shape} (hsteady : Steady style allowed)
    (h : Opens allowed fun text => ((value text).layout style).lines)
    (above below : List (List Char × Shape)) (key : List Char) :
    Opens allowed fun text =>
      ((Shape.object (above ++ (key, value text) :: below)).layout style).lines := by
  have hbody := (Opens.assignments hsteady h (layoutEntries style above)
    (layoutEntries style below) key).enclose (.code 0 ['\x7b']) (.code 0 ['\x7d'])
  refine hbody.congr fun text _ => ?_
  simp [layout, layoutEntries_append, layoutEntries, Rendered.ofAssignments, Rendered.lines]

/-- The opening of an item in a list. What is put in is the item, or the item is no leaf. -/
theorem opens_list {item : List Char → Shape}
    (h : Opens allowed fun text => ((item text).layout style).lines)
    (hleaf : (∀ text, item text = .leaf text) ∨ ∀ text, (item text).isLeaf = false)
    (before after : List Shape) :
    Opens allowed fun text =>
      ((Shape.list (before ++ item text :: after)).layout style).lines := by
  let rendered := fun (shapes : List Shape) => shapes.map (layout style)
  -- Whether the list stays on one line depends on which items are leaves and on their number.
  obtain ⟨line, hline⟩ : ∃ line, ∀ text, ((before ++ item text :: after).all isLeaf &&
      style.fits (before ++ item text :: after).length) = line := by
    refine ⟨before.all isLeaf && ((item []).isLeaf && after.all isLeaf) &&
      style.fits (before.length + (after.length + 1)), fun text => ?_⟩
    have hitem : (item text).isLeaf = (item []).isLeaf := by
      rcases hleaf with hleaf | hleaf
      · rw [hleaf, hleaf]
        rfl
      · rw [hleaf, hleaf]
    simp [hitem]
  have hlayout : ∀ text, (Shape.list (before ++ item text :: after)).layout style =
      .ofItems line (rendered before ++ (item text).layout style :: rendered after) := by
    intro text
    rw [layout, hline text]
    simp [layoutItems_eq_map, rendered]
  simp only [hlayout]
  cases line with
  | false =>
    refine ((Opens.items h (rendered before) (rendered after)).enclose
      (.code 0 ['[']) (.code 0 [']'])).congr fun text _ => ?_
    simp [Rendered.ofItems, Rendered.lines]
  | true =>
    have hitem : ∀ text, item text = .leaf text := by
      refine hleaf.resolve_right fun hnone => ?_
      simpa [hnone] using hline []
    refine ⟨[], 0, '[' :: ((rendered before).map Rendered.head).flatMap (· ++ [',', ' ']),
      ((rendered after).map Rendered.head).flatMap ([',', ' '] ++ ·) ++ [']'], [], ?_⟩
    intro text _
    simp [hitem text, Rendered.ofItems, Rendered.inline, Rendered.lines, joined_append_cons,
      layout]

end Shape

namespace Value.Opening

/-- A value is the leaf in its open place or no leaf at all. -/
theorem shape_eq_leaf_or (opening : Opening) :
    (∀ text, opening.shape text = .leaf text) ∨ ∀ text, (opening.shape text).isLeaf = false := by
  cases opening with
  | whole => exact .inl fun _ => rfl
  | item => exact .inr fun _ => rfl
  | entry => exact .inr fun _ => rfl
  | field => exact .inr fun _ => rfl

/-- **Leaves are opaque.** The layout of a value has the text of the leaf in the open place in one
of its lines, and nothing else in it depends on that text. -/
theorem opens_layout (hsteady : Steady style allowed) (opening : Opening) :
    Opens allowed fun text => ((opening.shape text).layout style).lines := by
  induction opening with
  | whole => exact Opens.leaf
  | item row before inner after ih => exact Shape.opens_list ih inner.shape_eq_leaf_or _ _
  | entry above key inner below apart ih => exact Shape.opens_object hsteady ih _ _ _
  | field above key inner below ih => exact Shape.opens_object hsteady ih _ _ _

end Value.Opening

end Layout

end Stanza
