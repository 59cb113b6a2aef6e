import Stanza.Proofs.Layout.Leaves
import Stanza.Proofs.Steps
import Stanza.Proofs.Template.Canonical

/-!
Values without their layout.

The `Shape` of a value is what is written for it, before anything is put on lines: the text of each
leaf, and the lists and objects around them. `Shape.layout` puts a shape on lines in a style.
Whenever a value is rendered, the outcome is the layout of its shape (`render_eq_ok`), so a style,
and the path that faults are reported with, decide nothing about what is written. What is known of a
value that has been rendered is `Value.IsWritten`: its leaves and keys have a form.
-/

namespace Stanza

/-- What is written for a value, without its layout. -/
inductive Shape where
  | leaf (text : List Char)
  | list (items : List Shape)
  | object (entries : List (List Char × Shape))
  deriving Inhabited

namespace Shape

/-- Whether a shape is the text of a leaf. -/
def isLeaf : Shape → Bool
  | .leaf _ => true
  | _ => false

mutual

/-- A shape on lines. -/
def layout (style : Style) : Shape → Rendered
  | .leaf text => .inline text
  | .list items =>
      .ofItems (items.all isLeaf && style.fits items.length) (layoutItems style items)
  | .object entries => .ofAssignments style (layoutEntries style entries)

/-- The items of a list on lines. -/
def layoutItems (style : Style) : List Shape → List Rendered
  | [] => []
  | item :: rest => item.layout style :: layoutItems style rest

/-- The entries of an object as assignments. -/
def layoutEntries (style : Style) : List (List Char × Shape) → List Assignment
  | [] => []
  | (key, value) :: rest => ⟨key, value.layout style⟩ :: layoutEntries style rest

end

end Shape

namespace Value

/-! ### The text of a leaf -/

/-- What is written for a scalar. -/
def scalarChars : Value → List Char
  | .null => "null".toList
  | .bool b => if b then "true".toList else "false".toList
  | .int n => integerText n
  | .float x => x.numeral?.getD []
  | .text s => Text.Quoted.quote s.toList
  | _ => []

/-- What is written for a leaf. -/
def leafChars : Value → List Char
  | .reference (.text s) => referenceChars s.toList
  | .raw (.text s) => s.toList
  | .template segments => '"' :: Template.body segments ++ ['"']
  | .literal v => v.scalarChars
  | v => v.scalarChars

/-- What is written for a key: an identifier as it is, another text in quotes. -/
def keyChars : Value → List Char
  | .text s => if Text.isIdentifier s.toList then s.toList else Text.Quoted.quote s.toList
  | _ => []

mutual

/-- The shape of a value. That of a value with no place in a document means nothing. -/
def shape : Value → Shape
  | .list items => .list (itemShapes items)
  | .tuple items => .list (itemShapes items)
  | .sequence elements => .list (itemShapes elements)
  | .mapping entries =>
      match Marker.ofEntries? entries with
      | some (marker, payload) => .leaf (marker.node payload).leafChars
      | none => .object (entryShapes entries)
  | .object entries => .object (entryShapes entries)
  | v => .leaf v.leafChars

/-- The shapes of some items. -/
def itemShapes : List Value → List Shape
  | [] => []
  | item :: rest => item.shape :: itemShapes rest

/-- The keys of some entries as they are written, and the shapes of their values. -/
def entryShapes : List (Value × Value) → List (List Char × Shape)
  | [] => []
  | (key, value) :: rest => (key.keyChars, value.shape) :: entryShapes rest

end

/-! ### Values that can be written -/

/-- A scalar that can be written. -/
def IsScalar : Value → Prop
  | .null | .bool _ | .int _ | .text _ => True
  | .float x => x.isFinite
  | _ => False

/-- A leaf that can be written. -/
def IsLeaf : Value → Prop
  | .reference (.text s) => s ≠ ""
  | .raw (.text _) => True
  | .template segments => ∀ v ∈ segments, Template.IsSegment (· ≠ "") v
  | .literal v => v.IsScalar
  | v => v.IsScalar

/-- A key that can be written: a text that is not empty. -/
def IsName : Value → Prop
  | .text s => s ≠ ""
  | _ => False

mutual

/-- A value whose leaves and keys can be written. -/
def IsWritten : Value → Prop
  | .list items => AreWritten items
  | .tuple items => AreWritten items
  | .sequence elements => AreWritten elements
  | .mapping entries =>
      match Marker.ofEntries? entries with
      | some (marker, payload) => (marker.node payload).IsLeaf
      | none => (∀ entry ∈ entries, entry.1.IsName) ∧ AreEntriesWritten entries
  | .object entries => (∀ entry ∈ entries, entry.1.IsName) ∧ AreEntriesWritten entries
  | v => v.IsLeaf

/-- Items whose leaves and keys can be written. -/
def AreWritten : List Value → Prop
  | [] => True
  | item :: rest => item.IsWritten ∧ AreWritten rest

/-- Entries in whose values the leaves and keys can be written. -/
def AreEntriesWritten : List (Value × Value) → Prop
  | [] => True
  | (_, value) :: rest => value.IsWritten ∧ AreEntriesWritten rest

end

end Value

/-! ### Leaves are written as their text -/

section Leaf

variable {style : Style} {path : Path} {text : List Char} {v : Value}

theorem Value.nonEmptyText?_eq_some {s : String} (h : v.nonEmptyText? = some s) :
    v = .text s ∧ s ≠ "" := by
  unfold Value.nonEmptyText? at h
  split at h
  · split at h
    · simp at h
    · simp_all
  · simp at h

theorem referenceText_eq_ok (h : referenceText path v = .ok text) :
    ∃ s, v = .text s ∧ s ≠ "" ∧ text = referenceChars s.toList := by
  unfold referenceText at h
  split at h
  · rename_i s hname
    obtain ⟨rfl, hs⟩ := Value.nonEmptyText?_eq_some hname
    exact ⟨s, rfl, hs, by simpa using h.symm⟩
  · exact absurd h fail_ne_ok

theorem checkText_eq_ok {s t : String} (h : Expression.checkText s path = .ok t) :
    Expression.rejection? s = none ∧ t = s := by
  unfold Expression.checkText at h
  split at h
  · exact ⟨‹_›, by simpa using h.symm⟩
  · exact absurd h fail_ne_ok

theorem rawText_eq_ok (h : rawText style path v = .ok text) :
    ∃ s, v = .text s ∧ text = s.toList := by
  unfold rawText at h
  split at h
  · rename_i s
    split at h
    · obtain ⟨t, ht, htext⟩ := bind_eq_ok_iff.mp h
      obtain ⟨-, rfl⟩ := checkText_eq_ok ht
      exact ⟨t, rfl, by simpa [pure, Except.pure] using htext.symm⟩
    · exact ⟨s, rfl, by simpa using h.symm⟩
  · exact absurd h fail_ne_ok

/-- Only texts and references with a name are written as segments. -/
theorem Template.isSegment_of_segmentsText {segments : List Value}
    (h : Template.segmentsText path segments = .ok text) :
    ∀ v ∈ segments, Template.IsSegment (· ≠ "") v := by
  induction segments generalizing text with
  | nil => simp
  | cons segment rest ih =>
    unfold Template.segmentsText at h
    split at h
    · simp at *
    · rename_i s others heq
      obtain ⟨rfl, rfl⟩ := List.cons.inj heq
      obtain ⟨more, hmore, -⟩ := bind_eq_ok_iff.mp h
      exact List.forall_mem_cons.mpr ⟨trivial, ih hmore⟩
    · rename_i name others heq
      obtain ⟨rfl, rfl⟩ := List.cons.inj heq
      obtain ⟨reference, hname, h⟩ := bind_eq_ok_iff.mp h
      obtain ⟨more, hmore, -⟩ := bind_eq_ok_iff.mp h
      obtain ⟨s, rfl, hs, -⟩ := referenceText_eq_ok hname
      exact List.forall_mem_cons.mpr ⟨hs, ih hmore⟩
    · exact absurd h fail_ne_ok

theorem Template.text_eq_ok {segments : List Value} (h : Template.text path segments = .ok text) :
    (∀ v ∈ segments, Template.IsSegment (· ≠ "") v) ∧
      text = '"' :: Template.body segments ++ ['"'] := by
  obtain ⟨inside, hinside, htext⟩ := bind_eq_ok_iff.mp h
  have hsegments := Template.isSegment_of_segmentsText hinside
  rw [Template.segmentsText_eq_ok hsegments, Except.ok.injEq] at hinside
  exact ⟨hsegments, by simpa [pure, Except.pure, hinside] using htext.symm⟩

theorem isFinite_of_numeral? {x : Double} {digits : List Char} (h : x.numeral? = some digits) :
    x.isFinite := by
  cases x <;> simp_all [Double.numeral?, Double.isFinite]

theorem scalarText_eq_ok (h : scalarText path v = .ok text) :
    v.IsScalar ∧ text = v.scalarChars := by
  unfold scalarText at h
  split at h
  · exact ⟨trivial, by simpa [Value.scalarChars] using h.symm⟩
  · exact ⟨trivial, by simpa [Value.scalarChars] using h.symm⟩
  · split at h
    · exact ⟨trivial, by simpa [Value.scalarChars] using h.symm⟩
    · exact absurd h fail_ne_ok
  · split at h
    · rename_i digits hdigits
      exact ⟨isFinite_of_numeral? hdigits, by simpa [Value.scalarChars, hdigits] using h.symm⟩
    · exact absurd h fail_ne_ok
  · exact ⟨trivial, by simpa [Value.scalarChars] using h.symm⟩
  · exact absurd h fail_ne_ok

/-- The items of a template marker become the segments they stand for. -/
theorem Value.toSegment_eq_ok {segment : Value} (h : v.toSegment path = .ok segment) :
    segment = v.segment := by
  unfold Value.toSegment at h
  split at h
  · simpa [Value.segment] using h.symm
  · simpa [Value.segment] using h.symm
  · rename_i key payload
    split at h
    · unfold Marker.reference? at h
      split at h
      · rename_i s hs
        obtain ⟨rfl, -⟩ := Value.nonEmptyText?_eq_some hs
        simpa [Value.segment] using h.symm
      · exact absurd h fail_ne_ok
    · obtain ⟨_, -, h⟩ := bind_eq_ok_iff.mp h
      exact absurd h fail_ne_ok
    · obtain ⟨_, -, h⟩ := bind_eq_ok_iff.mp h
      exact absurd h fail_ne_ok
    · exact absurd h fail_ne_ok
  · exact absurd h fail_ne_ok

theorem Value.segmentItems_eq_ok {items segments : List Value} {index : Nat}
    (h : Value.segmentItems path index items = .ok segments) :
    segments = items.map Value.segment := by
  induction items generalizing index segments with
  | nil => simpa [Value.segmentItems] using h.symm
  | cons item rest ih =>
    rw [Value.segmentItems] at h
    obtain ⟨segment, hsegment, h⟩ := bind_eq_ok_iff.mp h
    obtain ⟨more, hmore, h⟩ := bind_eq_ok_iff.mp h
    rw [List.map_cons, ← Value.toSegment_eq_ok hsegment, ← ih hmore]
    simpa [pure, Except.pure] using h.symm

theorem Value.markerSegments_eq_ok {segments : List Value}
    (h : v.markerSegments path = .ok segments) : segments = v.segments := by
  unfold Value.markerSegments at h
  split at h
  · exact Value.segmentItems_eq_ok h
  · exact Value.segmentItems_eq_ok h
  · exact absurd h fail_ne_ok

/-- The text of a marker is that of the node it stands for. -/
theorem markerText_eq_ok {marker : Marker} (h : markerText style path v marker = .ok text) :
    (marker.node v).IsLeaf ∧ text = (marker.node v).leafChars := by
  cases marker with
  | reference =>
    obtain ⟨_, -, h⟩ := bind_eq_ok_iff.mp h
    obtain ⟨s, rfl, hs, rfl⟩ := referenceText_eq_ok h
    exact ⟨hs, rfl⟩
  | raw =>
    obtain ⟨_, -, h⟩ := bind_eq_ok_iff.mp h
    obtain ⟨s, rfl, rfl⟩ := rawText_eq_ok h
    exact ⟨trivial, rfl⟩
  | template =>
    obtain ⟨segments, hsegments, h⟩ := bind_eq_ok_iff.mp h
    rw [Value.markerSegments_eq_ok hsegments] at h
    exact Template.text_eq_ok h

theorem objectKeyTexts_eq_ok {entries : Entries} {keys : List (List Char)}
    (h : objectKeyTexts path entries = .ok keys) :
    (∀ entry ∈ entries, entry.1.IsName) ∧ keys = entries.map fun entry => entry.1.keyChars := by
  induction entries generalizing keys with
  | nil =>
    obtain rfl : [] = keys := by simpa [objectKeyTexts] using h
    simp
  | cons entry rest ih =>
    rw [objectKeyTexts] at h
    obtain ⟨key, hkey, h⟩ := bind_eq_ok_iff.mp h
    obtain ⟨more, hmore, h⟩ := bind_eq_ok_iff.mp h
    obtain rfl : key :: more = keys := by simpa [pure, Except.pure] using h
    obtain ⟨hnames, rfl⟩ := ih hmore
    obtain ⟨hname, rfl⟩ : entry.1.IsName ∧ key = entry.1.keyChars := by
      unfold objectKeyText at hkey
      split at hkey
      · rename_i s hs
        obtain ⟨hs, hne⟩ := Value.nonEmptyText?_eq_some hs
        rw [hs]
        exact ⟨hne, by simpa [Value.keyChars] using hkey.symm⟩
      · exact absurd hkey fail_ne_ok
    exact ⟨List.forall_mem_cons.mpr ⟨hname, hnames⟩, rfl⟩

end Leaf

/-! ### What is rendered is the layout of a shape -/

section Layout

variable {style : Style} {path : Path}

theorem Value.isInline_eq_isLeaf (v : Value) : v.isInline = v.shape.isLeaf := by
  cases v
  case mapping entries =>
    rw [Value.isInline, Value.shape, Marker.isMarker]
    cases Marker.ofEntries? entries <;> rfl
  all_goals rfl

theorem Value.exists_shape_eq_leaf {v : Value} (h : v.isInline) : ∃ text, v.shape = .leaf text := by
  rw [isInline_eq_isLeaf] at h
  cases hshape : v.shape with
  | leaf text => exact ⟨text, rfl⟩
  | list => simp [hshape, Shape.isLeaf] at h
  | object => simp [hshape, Shape.isLeaf] at h

theorem Value.length_itemShapes (items : List Value) :
    (Value.itemShapes items).length = items.length := by
  induction items with
  | nil => rfl
  | cons item rest ih => simp [Value.itemShapes, ih]

theorem Value.staysOnLine_eq (items : List Value) :
    Value.staysOnLine style items =
      ((Value.itemShapes items).all Shape.isLeaf &&
        style.fits (Value.itemShapes items).length) := by
  have hall : items.all Value.isInline = (Value.itemShapes items).all Shape.isLeaf := by
    induction items with
    | nil => rfl
    | cons item rest ih => simp [Value.itemShapes, ih, Value.isInline_eq_isLeaf]
  rw [Value.staysOnLine, hall, Value.length_itemShapes]

namespace Value

mutual

/-- **Rendering is laying out a shape.** A value that is rendered can be written, and what is
rendered for it is the layout of its shape. -/
theorem render_eq_ok {path : Path} {v : Value} {r : Rendered} (h : v.render style path = .ok r) :
    v.IsWritten ∧ r = v.shape.layout style := by
  match v with
  | .list items | .tuple items | .sequence items =>
    rw [render] at h
    obtain ⟨_, -, h⟩ := bind_eq_ok_iff.mp h
    obtain ⟨rendered, hrendered, h⟩ := bind_eq_ok_iff.mp h
    obtain ⟨hwritten, rfl⟩ := renderItems_eq_ok hrendered
    rw [staysOnLine_eq] at h
    exact ⟨hwritten, by simpa [pure, Except.pure, shape, Shape.layout] using h.symm⟩
  | .object entries =>
    rw [render] at h
    obtain ⟨keys, hkeys, h⟩ := bind_eq_ok_iff.mp h
    obtain ⟨assignments, hassignments, h⟩ := bind_eq_ok_iff.mp h
    obtain ⟨hnames, rfl⟩ := objectKeyTexts_eq_ok hkeys
    obtain ⟨hwritten, rfl⟩ := renderEntries_eq_ok hassignments
    exact ⟨⟨hnames, hwritten⟩, by simpa [pure, Except.pure, shape, Shape.layout] using h.symm⟩
  | .mapping entries =>
    rw [render] at h
    rw [IsWritten, shape]
    cases hmarker : Marker.ofEntries? entries with
    | some found =>
      obtain ⟨marker, payload⟩ := found
      simp only [hmarker] at h ⊢
      obtain ⟨text, htext, h⟩ := bind_eq_ok_iff.mp h
      obtain ⟨hleaf, rfl⟩ := markerText_eq_ok htext
      exact ⟨hleaf, by simpa [pure, Except.pure, Shape.layout] using h.symm⟩
    | none =>
      simp only [hmarker] at h ⊢
      obtain ⟨keys, hkeys, h⟩ := bind_eq_ok_iff.mp h
      obtain ⟨assignments, hassignments, h⟩ := bind_eq_ok_iff.mp h
      obtain ⟨hnames, rfl⟩ := objectKeyTexts_eq_ok hkeys
      obtain ⟨hwritten, rfl⟩ := renderEntries_eq_ok hassignments
      exact ⟨⟨hnames, hwritten⟩, by simpa [pure, Except.pure, Shape.layout] using h.symm⟩
  | .reference _ =>
    rw [render] at h
    obtain ⟨text, htext, h⟩ := bind_eq_ok_iff.mp h
    obtain ⟨s, rfl, hs, rfl⟩ := referenceText_eq_ok htext
    exact ⟨hs, by simpa [pure, Except.pure, shape, leafChars, Shape.layout] using h.symm⟩
  | .raw _ =>
    rw [render] at h
    obtain ⟨text, htext, h⟩ := bind_eq_ok_iff.mp h
    obtain ⟨s, rfl, rfl⟩ := rawText_eq_ok htext
    exact ⟨trivial, by simpa [pure, Except.pure, shape, leafChars, Shape.layout] using h.symm⟩
  | .template _ =>
    rw [render] at h
    obtain ⟨text, htext, h⟩ := bind_eq_ok_iff.mp h
    obtain ⟨hsegments, rfl⟩ := Template.text_eq_ok htext
    exact ⟨hsegments, by simpa [pure, Except.pure, shape, leafChars, Shape.layout] using h.symm⟩
  | .literal _ | .null | .bool _ | .int _ | .float _ | .text _ | .bytes _ | .buffer _ | .set _
  | .date _ | .moment _ | .foreign _ | .block .. =>
    obtain ⟨text, htext, h⟩ := bind_eq_ok_iff.mp h
    obtain ⟨hscalar, rfl⟩ := scalarText_eq_ok htext
    exact ⟨hscalar, by simpa [pure, Except.pure, shape, leafChars, Shape.layout] using h.symm⟩

/-- Some items are rendered as the layouts of their shapes. -/
theorem renderItems_eq_ok {path : Path} {index : Nat} {items : List Value} {rs : List Rendered}
    (h : renderItems style path index items = .ok rs) :
    AreWritten items ∧ rs = Shape.layoutItems style (itemShapes items) := by
  match items with
  | [] => exact ⟨trivial, by simpa [renderItems, itemShapes, Shape.layoutItems] using h.symm⟩
  | item :: rest =>
    rw [renderItems] at h
    obtain ⟨first, hfirst, h⟩ := bind_eq_ok_iff.mp h
    obtain ⟨more, hmore, h⟩ := bind_eq_ok_iff.mp h
    obtain ⟨hitem, rfl⟩ := render_eq_ok hfirst
    obtain ⟨hrest, rfl⟩ := renderItems_eq_ok hmore
    exact ⟨⟨hitem, hrest⟩, by
      simpa [pure, Except.pure, itemShapes, Shape.layoutItems] using h.symm⟩

/-- Some entries are rendered as assignments of the layouts of their shapes. -/
theorem renderEntries_eq_ok {path : Path} {entries : Entries} {assignments : List Assignment}
    (h : renderEntries style path (entries.map fun entry => entry.1.keyChars) entries =
      .ok assignments) :
    AreEntriesWritten entries ∧ assignments = Shape.layoutEntries style (entryShapes entries) := by
  match entries with
  | [] => exact ⟨trivial, by simpa [renderEntries, entryShapes, Shape.layoutEntries] using h.symm⟩
  | (key, value) :: rest =>
    rw [renderEntries] at h
    obtain ⟨_, -, h⟩ := bind_eq_ok_iff.mp h
    obtain ⟨first, hfirst, h⟩ := bind_eq_ok_iff.mp h
    obtain ⟨more, hmore, h⟩ := bind_eq_ok_iff.mp h
    obtain ⟨hvalue, rfl⟩ := render_eq_ok hfirst
    obtain ⟨hrest, rfl⟩ := renderEntries_eq_ok hmore
    exact ⟨⟨hvalue, hrest⟩, by
      simpa [pure, Except.pure, entryShapes, Shape.layoutEntries] using h.symm⟩

end

end Value

end Layout

end Stanza
