import Stanza.Proofs.Layout.Outline
import Stanza.Proofs.Reader.Frame
import Stanza.Proofs.Template.Cuts
import Stanza.Proofs.Template.Reading

/-!
What values and blocks mean.

`Value.term` is the term that a value is to be read as, and `Block.reading` what a block is. Both
say what a document means and leave out how it is put: lists, tuples and sequences are lists, a
marker is the node it stands for, a template without references is the text, and a reference is what
is written for it. What number is taken for a double is a parameter: a reader only sees the number
`Double.written`, which is not always the double, but determines it (`exists_unwrites`). So what is
read determines the meaning with the doubles themselves (`Block.readings_toRat_eq`).

`Value.IsReadable` says which leaves have a meaning.
-/

namespace Stanza

namespace Value

/-- The term that a scalar means. -/
def scalarTerm (number : Double → ℚ) : Value → Term
  | .bool b => .bool b
  | .int n => .number n
  | .float x => .number (number x)
  | .text s => .quoted (s.toList.map .char)
  | _ => .null

/-- The term that a leaf means. -/
def leafTerm (number : Double → ℚ) : Value → Term
  | .reference (.text name) => .traversal (referenceChars name.toList)
  | .template segments => .quoted (Template.contents segments)
  | .literal v => v.scalarTerm number
  | v => v.scalarTerm number

/-- The name that a key means. -/
def name : Value → List Piece
  | .text s => s.toList.map .char
  | _ => []

mutual

/-- The term that a value means. -/
def term (number : Double → ℚ) : Value → Term
  | .list items => .list (itemTerms number items)
  | .tuple items => .list (itemTerms number items)
  | .sequence elements => .list (itemTerms number elements)
  | .mapping entries =>
      match Marker.ofEntries? entries with
      | some (marker, payload) => (marker.node payload).leafTerm number
      | none => .object (entryTerms number entries)
  | .object entries => .object (entryTerms number entries)
  | v => v.leafTerm number

/-- The terms that some items mean. -/
def itemTerms (number : Double → ℚ) : List Value → List Term
  | [] => []
  | item :: rest => item.term number :: itemTerms number rest

/-- The names and terms that some entries mean. -/
def entryTerms (number : Double → ℚ) : List (Value × Value) → List (List Piece × Term)
  | [] => []
  | (key, value) :: rest => (key.name, value.term number) :: entryTerms number rest

end

/-- A leaf that means something to a reader: no raw expression; a reference with a dotted name; a
template of texts and such references in which, with neighbouring texts merged, no two dollars meet
a reference, and which is not torn if it is given as a node (see `isReadable_templateNode`). -/
def IsReadable : Value → Prop
  | .reference (.text name) => Text.isDotted name.toList
  | .raw _ => False
  | .template segments =>
      (∀ v ∈ segments, Template.IsSegment (Text.isDotted ·.toList) v) ∧
        Template.isTorn segments = false ∧
        Template.dollarsMeetReference (Template.merge segments) = false
  | _ => True

/-- What a template marker stands for is never cut where it matters. -/
theorem isReadable_templateNode (payload : Value) :
    (Marker.template.node payload).IsReadable ↔
      (∀ v ∈ Template.merge payload.segments, Template.IsSegment (Text.isDotted ·.toList) v) ∧
        Template.dollarsMeetReference (Template.merge payload.segments) = false := by
  have hcanonical := Template.canonical_merge payload.segments
  simp [Marker.node, IsReadable, Template.isTorn_of_canonical hcanonical,
    Template.merge_eq_self hcanonical]

/-- A leaf is a scalar, or a node with a text, segments or a scalar in it. -/
theorem isScalar_or_of_isLeaf {v : Value} (h : v.IsLeaf) :
    v.IsScalar ∨ (∃ s, v = .reference (.text s)) ∨ (∃ s, v = .raw (.text s)) ∨
      (∃ segments, v = .template segments) ∨ ∃ w, v = .literal w ∧ w.IsScalar := by
  unfold IsLeaf at h
  split at h
  · exact .inr (.inl ⟨_, rfl⟩)
  · exact .inr (.inr (.inl ⟨_, rfl⟩))
  · exact .inr (.inr (.inr (.inl ⟨_, rfl⟩)))
  · exact .inr (.inr (.inr (.inr ⟨_, rfl, h⟩)))
  · exact .inl h

theorem leaf_of_isScalar {v : Value} (h : v.IsScalar) (number : Double → ℚ) :
    v.leafTerm number = v.scalarTerm number ∧ v.leafChars = v.scalarChars := by
  unfold IsScalar at h
  split at h
  · exact ⟨rfl, rfl⟩
  · exact ⟨rfl, rfl⟩
  · exact ⟨rfl, rfl⟩
  · exact ⟨rfl, rfl⟩
  · exact ⟨rfl, rfl⟩
  · exact absurd h id

end Value

namespace Block

/-- The names and terms that the attributes of a block mean. -/
def attributeTerms (number : Double → ℚ) : Value → List (List Piece × Term)
  | .mapping entries => Value.entryTerms number entries
  | _ => []

mutual

/-- What a block means. -/
def reading (number : Double → ℚ) : Value → Reading
  | .block path attributes children =>
      .block ((pathTexts path).headD []) ((pathTexts path).tail.map fun label => label.map .char)
        (attributeTerms number attributes) (childReadings number children)
  | _ => .block [] [] [] []

/-- What the children of a block mean. -/
def childReadings (number : Double → ℚ) : Value → List Reading
  | .list items => readings number items
  | .tuple items => readings number items
  | .set members => readings number members
  | _ => []

/-- What some blocks mean. -/
def readings (number : Double → ℚ) : List Value → List Reading
  | [] => []
  | item :: rest => reading number item :: readings number rest

end

end Block

/-! ### Other numbers -/

namespace Term

mutual

/-- A term with its numbers changed. -/
def renumber (f : ℚ → ℚ) : Term → Term
  | .number q => .number (f q)
  | .list items => .list (renumberItems f items)
  | .object entries => .object (renumberEntries f entries)
  | term => term

/-- Items with their numbers changed. -/
def renumberItems (f : ℚ → ℚ) : List Term → List Term
  | [] => []
  | item :: rest => item.renumber f :: renumberItems f rest

/-- Entries with their numbers changed. -/
def renumberEntries (f : ℚ → ℚ) : List (List Piece × Term) → List (List Piece × Term)
  | [] => []
  | (name, term) :: rest => (name, term.renumber f) :: renumberEntries f rest

end

end Term

namespace Reading

mutual

/-- A block with its numbers changed. -/
def renumber (f : ℚ → ℚ) : Reading → Reading
  | .block keyword labels attributes children =>
      .block keyword labels (Term.renumberEntries f attributes) (renumberAll f children)

/-- Blocks with their numbers changed. -/
def renumberAll (f : ℚ → ℚ) : List Reading → List Reading
  | [] => []
  | first :: rest => first.renumber f :: renumberAll f rest

end

end Reading

/-- A function that takes the number that is written for a double to the double, and keeps
integers. -/
def Unwrites (f : ℚ → ℚ) : Prop :=
  (∀ n : ℤ, f n = n) ∧ ∀ x : Double, x.isFinite → f x.written = x.toRat

/-- The number that is written for a double determines the double, whether or not it is that of an
integer. -/
theorem exists_unwrites : ∃ f, Unwrites f := by
  have hwritten : ∀ q : ℚ, ∃ r : ℚ, (∀ n : ℤ, q = n → r = n) ∧
      ∀ x : Double, x.isFinite → x.written = q → r = x.toRat := by
    intro q
    by_cases hint : ∃ n : ℤ, q = n
    · obtain ⟨n, rfl⟩ := hint
      exact ⟨n, fun _ => id, fun x hfinite hn =>
        (Double.toRat_eq_of_written_eq_intCast hfinite hn).symm⟩
    by_cases hex : ∃ x : Double, x.isFinite ∧ x.written = q
    · obtain ⟨y, hfinite', rfl⟩ := hex
      exact ⟨y.toRat, fun n hn => absurd ⟨n, hn⟩ hint, fun x hfinite hsame =>
        Double.toRat_eq_of_written_eq hfinite' hfinite hsame.symm⟩
    · exact ⟨0, fun n hn => absurd ⟨n, hn⟩ hint,
        fun x hfinite hsame => absurd ⟨x, hfinite, hsame⟩ hex⟩
  choose f hint hf using hwritten
  exact ⟨f, fun n => hint n n rfl, fun x hfinite => hf _ x hfinite rfl⟩

/-! ### What is read determines the meaning -/

section Renumber

variable {f : ℚ → ℚ}

namespace Value

theorem renumber_scalarTerm {v : Value} (hf : Unwrites f) (hwritten : v.IsScalar) :
    (v.scalarTerm Double.written).renumber f = v.scalarTerm Double.toRat := by
  unfold IsScalar at hwritten
  split at hwritten
  · rfl
  · rfl
  · simp [scalarTerm, Term.renumber, hf.1]
  · rfl
  · simp [scalarTerm, Term.renumber, hf.2 _ hwritten]
  · exact absurd hwritten id

theorem renumber_leafTerm {v : Value} (hf : Unwrites f) (hreadable : v.IsReadable)
    (hwritten : v.IsLeaf) :
    (v.leafTerm Double.written).renumber f = v.leafTerm Double.toRat := by
  rcases isScalar_or_of_isLeaf hwritten with
    hscalar | ⟨s, rfl⟩ | ⟨s, rfl⟩ | ⟨segments, rfl⟩ | ⟨w, rfl, hscalar⟩
  · rw [(leaf_of_isScalar hscalar _).1, (leaf_of_isScalar hscalar _).1]
    exact renumber_scalarTerm hf hscalar
  · rfl
  · rfl
  · rfl
  · exact renumber_scalarTerm hf hscalar

mutual

theorem renumber_term {v : Value} (hf : Unwrites f) (hwritten : v.IsWritten)
    (h : ∀ leaf ∈ v.leaves, leaf.IsReadable) :
    (v.term Double.written).renumber f = v.term Double.toRat := by
  match v with
  | .list items | .tuple items | .sequence items =>
    simp only [term, Term.renumber, renumber_itemTerms hf hwritten h]
  | .object entries =>
    simp only [term, Term.renumber, renumber_entryTerms hf hwritten.2 h]
  | .mapping entries =>
    rw [IsWritten] at hwritten
    rw [leaves] at h
    rw [term, term]
    cases hmarker : Marker.ofEntries? entries with
    | some found =>
      obtain ⟨marker, payload⟩ := found
      simp only [hmarker, List.mem_singleton, forall_eq] at hwritten h ⊢
      exact renumber_leafTerm hf h hwritten
    | none =>
      simp only [hmarker] at hwritten h ⊢
      simp only [Term.renumber, renumber_entryTerms hf hwritten.2 h]
  | .null | .bool _ | .int _ | .float _ | .text _ | .bytes _ | .buffer _ | .set _ | .date _
  | .moment _ | .foreign _ | .reference _ | .raw _ | .template _ | .literal _ | .block .. =>
    exact renumber_leafTerm hf (h _ List.mem_cons_self) hwritten

theorem renumber_itemTerms {items : List Value} (hf : Unwrites f) (hwritten : AreWritten items)
    (h : ∀ leaf ∈ itemLeaves items, leaf.IsReadable) :
    Term.renumberItems f (itemTerms Double.written items) = itemTerms Double.toRat items := by
  match items with
  | [] => rfl
  | item :: rest =>
    rw [itemLeaves] at h
    obtain ⟨hitem, hrest⟩ := List.forall_mem_append.mp h
    rw [itemTerms, itemTerms, Term.renumberItems, renumber_term hf hwritten.1 hitem,
      renumber_itemTerms hf hwritten.2 hrest]

theorem renumber_entryTerms {entries : Entries} (hf : Unwrites f)
    (hwritten : AreEntriesWritten entries) (h : ∀ leaf ∈ entryLeaves entries, leaf.IsReadable) :
    Term.renumberEntries f (entryTerms Double.written entries) =
      entryTerms Double.toRat entries := by
  match entries with
  | [] => rfl
  | (key, value) :: rest =>
    rw [entryLeaves] at h
    obtain ⟨hvalue, hrest⟩ := List.forall_mem_append.mp h
    rw [entryTerms, entryTerms, Term.renumberEntries, renumber_term hf hwritten.1 hvalue,
      renumber_entryTerms hf hwritten.2 hrest]

end

end Value

namespace Block

theorem renumber_attributeTerms {attributes : Value} (hf : Unwrites f)
    (hwritten : AreAttributesWritten attributes)
    (h : ∀ leaf ∈ attributeLeaves attributes, leaf.IsReadable) :
    Term.renumberEntries f (attributeTerms Double.written attributes) =
      attributeTerms Double.toRat attributes := by
  cases attributes
  case mapping entries => exact Value.renumber_entryTerms hf hwritten.2 h
  all_goals rfl

mutual

theorem renumber_reading {node : Value} (hf : Unwrites f) (hwritten : IsWritten node)
    (h : ∀ leaf ∈ leaves node, leaf.IsReadable) :
    (reading Double.written node).renumber f = reading Double.toRat node := by
  obtain ⟨path, attributes, children, rfl⟩ := hwritten.exists_eq_block
  rw [leaves] at h
  obtain ⟨-, hattributes, hchildren⟩ := hwritten
  obtain ⟨hreadable, hothers⟩ := List.forall_mem_append.mp h
  rw [reading, reading, Reading.renumber, renumber_attributeTerms hf hattributes hreadable,
    renumber_childReadings hf hchildren hothers]
termination_by sizeOf node

theorem renumber_childReadings {children : Value} (hf : Unwrites f)
    (hwritten : AreChildrenWritten children)
    (h : ∀ leaf ∈ childLeaves children, leaf.IsReadable) :
    Reading.renumberAll f (childReadings Double.written children) =
      childReadings Double.toRat children := by
  match children with
  | .list items | .tuple items | .set items => exact renumber_readings hf hwritten h
  | .null | .bool _ | .int _ | .float _ | .text _ | .bytes _ | .buffer _ | .mapping _ | .date _
  | .moment _ | .foreign _ | .reference _ | .raw _ | .template _ | .literal _ | .sequence _
  | .object _ | .block .. => rfl
termination_by sizeOf children

theorem renumber_readings {nodes : List Value} (hf : Unwrites f) (hwritten : AreWritten nodes)
    (h : ∀ leaf ∈ itemLeaves nodes, leaf.IsReadable) :
    Reading.renumberAll f (readings Double.written nodes) = readings Double.toRat nodes := by
  match nodes with
  | [] => rfl
  | node :: rest =>
    rw [itemLeaves] at h
    obtain ⟨hnode, hrest⟩ := List.forall_mem_append.mp h
    rw [readings, readings, Reading.renumberAll, renumber_reading hf hwritten.1 hnode,
      renumber_readings hf hwritten.2 hrest]
termination_by sizeOf nodes

end

/-- Blocks that are read alike mean the same. -/
theorem readings_toRat_eq {nodes others : List Value} (hwritten : AreWritten nodes)
    (hwritten' : AreWritten others) (h : ∀ leaf ∈ itemLeaves nodes, leaf.IsReadable)
    (h' : ∀ leaf ∈ itemLeaves others, leaf.IsReadable)
    (hsame : readings Double.written nodes = readings Double.written others) :
    readings Double.toRat nodes = readings Double.toRat others := by
  obtain ⟨f, hf⟩ := exists_unwrites
  rw [← renumber_readings hf hwritten h, ← renumber_readings hf hwritten' h', hsame]

end Block

end Renumber

end Stanza
