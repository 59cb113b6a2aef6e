import Stanza.Block.Compile
import Stanza.Proofs.Layout.Lexeme

/-!
Blocks without their layout.

The `Outline` of a block is its keyword, its labels, the shapes of its attributes, and the outlines
of its children. Whenever blocks compile, all that is in them can be written (`Block.AreWritten`),
and the text is laid out from the lexemes of their outlines (`Document.laid_compile`). So a format
only decides about the spaces and line feeds between the lexemes.

* `Block.header_eq_ok`, `Attributes.ofEntries_eq_ok`, `Block.lines_block_eq_ok`: what has been
  checked, and what is written, when a header, attributes or a block are rendered.
* `Block.laidFrom_lines`: the lines of a block are laid out from the lexemes of its outline.
-/

namespace Stanza

/-- What is written for a block, without its layout. -/
inductive Outline where
  | block (keyword : List Char) (labels : List (List Char))
      (attributes : List (List Char × Shape)) (children : List Outline)
  deriving Inhabited

namespace Outline

mutual

/-- The lexemes of an outline. -/
def lexemes : Outline → List Lexeme
  | .block keyword labels attributes children =>
      (keyword :: labels.map Text.Quoted.quote).map .text ++
        .mark '\x7b' :: (Shape.entryLexemes attributes ++ rowLexemes children) ++ [.mark '\x7d']

/-- The lexemes of outlines in a row. -/
def rowLexemes : List Outline → List Lexeme
  | [] => []
  | outline :: rest => outline.lexemes ++ rowLexemes rest

end

end Outline

/-- A key that is an identifier. -/
def Value.IsIdentifier : Value → Prop
  | .text s => Text.isIdentifier s.toList
  | _ => False

namespace Block

/-- The parts of the path of a block. A part that is no text does not count. -/
def pathTexts : Value → List (List Char)
  | .list parts => parts.map fun part => (part.text?.getD "").toList
  | .tuple parts => parts.map fun part => (part.text?.getD "").toList
  | _ => []

/-- The shapes of the attributes of a block. -/
def attributeShapes : Value → List (List Char × Shape)
  | .mapping entries => Value.entryShapes entries
  | _ => []

mutual

/-- The outline of a block. That of another value means nothing. -/
def outline : Value → Outline
  | .block path attributes children =>
      .block ((pathTexts path).headD []) (pathTexts path).tail (attributeShapes attributes)
        (childOutlines children)
  | _ => .block [] [] [] []

/-- The outlines of the children of a block. -/
def childOutlines : Value → List Outline
  | .list items => itemOutlines items
  | .tuple items => itemOutlines items
  | .set members => itemOutlines members
  | _ => []

/-- The outlines of some blocks. -/
def itemOutlines : List Value → List Outline
  | [] => []
  | item :: rest => outline item :: itemOutlines rest

end

/-! ### Blocks that can be written -/

/-- Attributes that can be written: their names are identifiers. -/
def AreAttributesWritten : Value → Prop
  | .mapping entries => (∀ entry ∈ entries, entry.1.IsIdentifier) ∧ Value.AreEntriesWritten entries
  | _ => True

mutual

/-- A block that can be written, with its attributes and children. -/
def IsWritten : Value → Prop
  | .block path attributes children =>
      Text.isIdentifier ((pathTexts path).headD []) ∧ AreAttributesWritten attributes ∧
        AreChildrenWritten children
  | _ => False

/-- Children of a block that can be written. -/
def AreChildrenWritten : Value → Prop
  | .list items => AreWritten items
  | .tuple items => AreWritten items
  | .set members => AreWritten members
  | _ => True

/-- Blocks that can be written. -/
def AreWritten : List Value → Prop
  | [] => True
  | item :: rest => IsWritten item ∧ AreWritten rest

end

/-- Only blocks can be written as blocks. -/
theorem IsWritten.exists_eq_block {node : Value} (h : IsWritten node) :
    ∃ path attributes children, node = .block path attributes children := by
  cases node
  case block path attributes children => exact ⟨path, attributes, children, rfl⟩
  all_goals exact absurd h id

end Block

/-! ### What has been checked when something is written -/

section Steps

variable {style : Style} {path : Path}

theorem Block.partTexts_eq_ok {all parts : List Value} {index : Nat} {texts : List String}
    (h : Block.partTexts path all index parts = .ok texts) :
    parts = texts.map .text ∧ ∀ s ∈ texts, s ≠ "" := by
  induction parts generalizing index texts with
  | nil =>
    obtain rfl : [] = texts := by simpa [Block.partTexts] using h
    simp
  | cons part rest ih =>
    rw [Block.partTexts] at h
    split at h
    · rename_i s hs
      obtain ⟨more, hmore, h⟩ := bind_eq_ok_iff.mp h
      obtain rfl : s :: more = texts := by simpa [pure, Except.pure] using h
      obtain ⟨rfl, hne⟩ := Value.nonEmptyText?_eq_some hs
      obtain ⟨rfl, hnes⟩ := ih hmore
      exact ⟨rfl, List.forall_mem_cons.mpr ⟨hne, hnes⟩⟩
    · exact absurd h fail_ne_ok

theorem Block.headerOfParts_eq_ok {texts : List String} {header : List Char}
    (h : Block.headerOfParts path texts = .ok header) :
    ∃ (keyword : String) (labels : List String), texts = keyword :: labels ∧
      Text.isIdentifier keyword.toList ∧
      header = joined [' ']
        (keyword.toList :: labels.map fun label => Text.Quoted.quote label.toList) := by
  unfold Block.headerOfParts at h
  split at h
  · exact absurd h fail_ne_ok
  · rename_i keyword labels
    split at h
    · exact ⟨keyword, labels, rfl, ‹_›, (Except.ok.inj h).symm⟩
    · exact absurd h fail_ne_ok

/-- A path with a header is a row of texts. The header is the first of them, the keyword, which is
an identifier, and the others in quotes, which are the labels. -/
theorem Block.header_eq_ok {blockPath : Value} {header : List Char} {address : String}
    (h : Block.header path blockPath = .ok (header, address)) :
    ∃ (keyword : String) (labels : List String),
      blockPath.items? = some (.text keyword :: labels.map .text) ∧
      blockPath.row? = some (.text keyword :: labels.map .text) ∧
      Block.pathTexts blockPath = keyword.toList :: labels.map String.toList ∧
      address = dotted (.text keyword :: labels.map .text) ∧
      Text.isIdentifier keyword.toList ∧
      header = joined [' ']
        (keyword.toList :: labels.map fun label => Text.Quoted.quote label.toList) := by
  obtain ⟨parts, hitems, hrow, hpath, h⟩ : ∃ parts, blockPath.items? = some parts ∧
      blockPath.row? = some parts ∧
      Block.pathTexts blockPath = (parts.map fun part => (part.text?.getD "").toList) ∧ (do
        let header ← Block.headerOfParts path (← Block.partTexts path parts 0 parts)
        return (header, dotted parts)) = Except.ok (header, address) := by
    unfold Block.header at h
    split at h
    · exact ⟨_, rfl, rfl, rfl, h⟩
    · exact ⟨_, rfl, rfl, rfl, h⟩
    · exact absurd h fail_ne_ok
  obtain ⟨texts, htexts, h⟩ := bind_eq_ok_iff.mp h
  obtain ⟨header', hheader, h⟩ := bind_eq_ok_iff.mp h
  obtain ⟨rfl, rfl⟩ : header' = header ∧ dotted parts = address := by
    simpa [pure, Except.pure] using h
  obtain ⟨rfl, -⟩ := Block.partTexts_eq_ok htexts
  obtain ⟨keyword, labels, rfl, hkeyword, rfl⟩ := Block.headerOfParts_eq_ok hheader
  refine ⟨keyword, labels, hitems, hrow, ?_, rfl, hkeyword, rfl⟩
  simpa [Value.text?, Function.comp_def] using hpath

theorem Attributes.nameText_eq_ok {key : Value} {name : List Char}
    (h : Attributes.nameText path key = .ok name) : key.IsIdentifier ∧ name = key.keyChars := by
  unfold Attributes.nameText at h
  split at h
  · rename_i s
    split at h
    · rename_i hidentifier
      exact ⟨hidentifier, by simpa [Value.keyChars, hidentifier] using h.symm⟩
    · exact absurd h fail_ne_ok
  · exact absurd h fail_ne_ok

theorem Attributes.nameTexts_eq_ok {entries : Entries} {names : List (List Char)}
    (h : Attributes.nameTexts path entries = .ok names) :
    (∀ entry ∈ entries, entry.1.IsIdentifier) ∧
      names = entries.map fun entry => entry.1.keyChars := by
  induction entries generalizing names with
  | nil =>
    obtain rfl : [] = names := by simpa [Attributes.nameTexts] using h
    simp
  | cons entry rest ih =>
    rw [Attributes.nameTexts] at h
    obtain ⟨name, hname, h⟩ := bind_eq_ok_iff.mp h
    obtain ⟨more, hmore, h⟩ := bind_eq_ok_iff.mp h
    obtain rfl : name :: more = names := by simpa [pure, Except.pure] using h
    obtain ⟨hidentifier, rfl⟩ := Attributes.nameText_eq_ok hname
    obtain ⟨hrest, rfl⟩ := ih hmore
    exact ⟨List.forall_mem_cons.mpr ⟨hidentifier, hrest⟩, rfl⟩

/-- Attributes that are rendered can be written, and are rendered as the layout of their shapes. -/
theorem Attributes.ofEntries_eq_ok {entries : Entries} {rendered : List Rendered}
    (h : Attributes.ofEntries style path entries = .ok rendered) :
    Block.AreAttributesWritten (.mapping entries) ∧
      rendered =
        Assignment.renderAll style (Shape.layoutEntries style (Value.entryShapes entries)) := by
  obtain ⟨names, hnames, h⟩ := bind_eq_ok_iff.mp h
  obtain ⟨assignments, hassignments, hrendered⟩ := bind_eq_ok_iff.mp h
  obtain ⟨hidentifiers, rfl⟩ := Attributes.nameTexts_eq_ok hnames
  obtain ⟨hwritten, rfl⟩ := Value.renderEntries_eq_ok hassignments
  exact ⟨⟨hidentifiers, hwritten⟩, by simpa [pure, Except.pure] using hrendered.symm⟩

theorem Block.noBlocks_eq_ok {items : List Value} {lines : List Line}
    (h : Block.noBlocks path items = .ok lines) : lines = [] := by
  cases items with
  | nil => simpa [Block.noBlocks] using h.symm
  | cons item rest => exact absurd h fail_ne_ok

theorem Block.attributeEntries_eq_ok {attributes : Value} {entries : Entries}
    (h : Block.attributeEntries path attributes = .ok entries) :
    Value.entryShapes entries = Block.attributeShapes attributes ∧
      (Block.AreAttributesWritten (.mapping entries) → Block.AreAttributesWritten attributes) := by
  unfold Block.attributeEntries at h
  split at h
  · obtain rfl : [] = entries := by simpa using h
    exact ⟨rfl, fun _ => trivial⟩
  · obtain rfl := Except.ok.inj h
    exact ⟨rfl, id⟩
  · exact absurd h fail_ne_ok

/-- Only blocks have lines. -/
theorem Block.exists_eq_block_of_lines {node : Value} {lines : List Line}
    (h : Block.lines style path node = .ok lines) :
    ∃ blockPath attributes children, node = .block blockPath attributes children := by
  unfold Block.lines at h
  split at h
  · exact ⟨_, _, _, rfl⟩
  · exact absurd h fail_ne_ok

/-- The lines of a block: the header, the lines of the attributes and of the children, which have
the address of the block on their way, a level further in, and the closing brace. -/
theorem Block.lines_block_eq_ok {blockPath attributes children : Value} {lines : List Line}
    (h : Block.lines style path (.block blockPath attributes children) = .ok lines) :
    ∃ (keyword : String) (labels : List String) (body nested : List Line),
      blockPath.items? = some (.text keyword :: labels.map .text) ∧
      blockPath.row? = some (.text keyword :: labels.map .text) ∧
      Block.pathTexts blockPath = keyword.toList :: labels.map String.toList ∧
      Text.isIdentifier keyword.toList ∧ Block.AreAttributesWritten attributes ∧
      body = (Assignment.renderAll style
        (Shape.layoutEntries style (Block.attributeShapes attributes))).flatMap Rendered.lines ∧
      Block.childLines style (path ++ [.text (dotted (.text keyword :: labels.map .text))])
        (!body.isEmpty) children = .ok nested ∧
      lines = Rendered.lines
        ⟨joined [' '] (keyword.toList :: labels.map fun label => Text.Quoted.quote label.toList) ++
            [' ', '\x7b'],
          (body ++ nested).map Line.deepen ++ [.code 0 ['\x7d']]⟩ := by
  obtain ⟨⟨header, address⟩, hheader, h⟩ := bind_eq_ok_iff.mp h
  obtain ⟨keyword, labels, hitems, hrow, hpath, rfl, hkeyword, rfl⟩ := Block.header_eq_ok hheader
  obtain ⟨entries, hentries, h⟩ := bind_eq_ok_iff.mp h
  obtain ⟨hshapes, hwritten⟩ := Block.attributeEntries_eq_ok hentries
  obtain ⟨_, -, h⟩ := bind_eq_ok_iff.mp h
  obtain ⟨rendered, hrendered, h⟩ := bind_eq_ok_iff.mp h
  obtain ⟨hnames, rfl⟩ := Attributes.ofEntries_eq_ok hrendered
  rw [hshapes] at h
  obtain ⟨nested, hnested, h⟩ := bind_eq_ok_iff.mp h
  obtain rfl := Except.ok.inj h
  exact ⟨keyword, labels, _, nested, hitems, hrow, hpath, hkeyword, hwritten hnames, rfl, hnested,
    rfl⟩

end Steps

/-! ### Blocks are laid out from the lexemes of their outlines -/

section Blocks

variable {style : Style} {width : Nat}

/-- Texts with a space between them. -/
theorem laid_joined_spaces (texts : List (List Char)) :
    Laid (texts.map .text) (joined [' '] texts) := by
  induction texts with
  | nil => exact .nil
  | cons text rest ih =>
    cases rest with
    | nil => exact Laid.single text
    | cons next others =>
      simpa [joined] using
        Laid.text text (breaks_cons (by decide) _) (.blank (.inl rfl) ih)

theorem laidFrom_separator (style : Style) (follows : Bool) :
    Line.LaidFrom width [] (Block.separator style follows) := by
  intro level
  unfold Block.separator
  split
  · exact .blank (.inr rfl) .nil
  · exact .nil

namespace Block

mutual

/-- A block that has lines can be written, and its lines are laid out from the lexemes of its
outline. -/
theorem laidFrom_lines {path : Path} {node : Value} {ls : List Line}
    (h : lines style path node = .ok ls) :
    IsWritten node ∧ ∃ r : Rendered, ls = r.lines ∧ r.LaidFrom width (outline node).lexemes := by
  obtain ⟨blockPath, attributes, children, rfl⟩ := exists_eq_block_of_lines h
  obtain ⟨keyword, labels, _, nested, -, -, hpath, hkeyword, hwritten, rfl, hnested, rfl⟩ :=
    lines_block_eq_ok h
  obtain ⟨hchildren, hlaid⟩ := laidFrom_childLines hnested
  rw [IsWritten, outline, hpath]
  refine ⟨⟨hkeyword, hwritten, hchildren⟩, _, rfl, fun level => ?_⟩
  have hattributes : Line.LaidFrom width (Shape.entryLexemes (attributeShapes attributes))
      ((Assignment.renderAll style
        (Shape.layoutEntries style (attributeShapes attributes))).flatMap Rendered.lines) :=
    laidFrom_assignments (Shape.laidFrom_layoutEntries _)
  have hbody := laidFrom_enclosed '\x7b' '\x7d' (hattributes.append hlaid)
  have hheader := (laid_joined_spaces
    (keyword.toList :: labels.map fun label => Text.Quoted.quote label.toList)).append
    (.blank (.inl rfl) (hbody level)) (breaks_cons (by decide) _)
  simpa [Outline.lexemes, Rendered.write, Function.comp_def] using hheader
termination_by sizeOf node

theorem laidFrom_childLines {path : Path} {follows : Bool} {children : Value} {ls : List Line}
    (h : childLines style path follows children = .ok ls) :
    AreChildrenWritten children ∧
      Line.LaidFrom width (Outline.rowLexemes (childOutlines children)) ls := by
  match children with
  | .list items | .tuple items | .set items => exact laidFrom_itemLines h
  | .buffer bytes =>
    rw [childLines] at h
    rw [noBlocks_eq_ok h]
    exact ⟨trivial, fun _ => .nil⟩
  | .foreign f =>
    rw [childLines] at h
    rw [noBlocks_eq_ok h]
    exact ⟨trivial, fun _ => .nil⟩
  | .null | .bool _ | .int _ | .float _ | .text _ | .bytes _ | .mapping _ | .date _ | .moment _
  | .reference _ | .raw _ | .template _ | .literal _ | .sequence _ | .object _ | .block .. =>
    obtain rfl : [] = ls := by simpa [childLines] using h
    exact ⟨trivial, fun _ => .nil⟩
termination_by sizeOf children

theorem laidFrom_itemLines {path : Path} {follows : Bool} {items : List Value} {ls : List Line}
    (h : itemLines style path follows items = .ok ls) :
    AreWritten items ∧
      Line.LaidFrom width (Outline.rowLexemes (itemOutlines items)) ls := by
  match items with
  | [] =>
    obtain rfl : [] = ls := by simpa [itemLines] using h
    exact ⟨trivial, fun _ => .nil⟩
  | item :: rest =>
    rw [itemLines] at h
    obtain ⟨first, hfirst, h⟩ := bind_eq_ok_iff.mp h
    obtain ⟨more, hmore, h⟩ := bind_eq_ok_iff.mp h
    obtain rfl : separator style follows ++ first ++ more = ls := by
      simpa [pure, Except.pure] using h
    obtain ⟨hitem, r, rfl, hr⟩ := laidFrom_lines hfirst
    obtain ⟨hothers, hlaid⟩ := laidFrom_itemLines hmore
    refine ⟨⟨hitem, hothers⟩, ?_⟩
    rw [itemOutlines, Outline.rowLexemes]
    simpa using ((laidFrom_separator style follows).append hr.lines).append hlaid
termination_by sizeOf items

end

/-- A block that compiles is laid out from the lexemes of its outline. -/
theorem laid_compile {format : Format} {level : Int} {node : Value} {text : List Char}
    (h : compile format level node = .ok text) :
    IsWritten node ∧ Laid (outline node).lexemes text := by
  obtain ⟨ls, hlines, htext⟩ := bind_eq_ok_iff.mp h
  obtain ⟨hwritten, r, rfl, hr⟩ : IsWritten node ∧
      ∃ r : Rendered, ls = r.lines ∧ r.LaidFrom format.indentWidth (outline node).lexemes :=
    laidFrom_lines hlines
  obtain rfl : Line.writeAll format.indentWidth level r.lines = text := by
    simpa [pure, Except.pure] using htext
  refine ⟨hwritten, ?_⟩
  rw [Rendered.lines, Line.writeAll_cons, Line.write]
  simpa [indent, Rendered.write_eq] using (hr level).spaces _

end Block

namespace Document

theorem laid_blockTexts {format : Format} {nodes : List Value} {texts : List (List Char)}
    (h : blockTexts format nodes = .ok texts) :
    Block.AreWritten nodes ∧
      Laid (Outline.rowLexemes (Block.itemOutlines nodes)) (joined ['\n', '\n'] texts) := by
  induction nodes generalizing texts with
  | nil =>
    obtain rfl : [] = texts := by simpa [blockTexts] using h
    exact ⟨trivial, .nil⟩
  | cons node rest ih =>
    rw [blockTexts] at h
    obtain ⟨first, hfirst, h⟩ := bind_eq_ok_iff.mp h
    obtain ⟨more, hmore, h⟩ := bind_eq_ok_iff.mp h
    obtain rfl : first :: more = texts := by simpa [pure, Except.pure] using h
    obtain ⟨hwritten, hlaid⟩ := Block.laid_compile hfirst
    obtain ⟨hothers, hrest⟩ := ih hmore
    refine ⟨⟨hwritten, hothers⟩, ?_⟩
    rw [Block.itemOutlines, Outline.rowLexemes]
    cases more with
    | nil => simpa [joined] using hlaid.append hrest breaks_nil
    | cons next others =>
      simpa [joined] using
        hlaid.append (.blank (.inr rfl) (.blank (.inr rfl) hrest)) (breaks_cons (by decide) _)

/-- **Formats decide about blanks only.** The text of a document is laid out from the lexemes of its
outlines, whatever the format. -/
theorem laid_compile {format : Format} {nodes : List Value} {text : List Char}
    (h : compile format nodes = .ok text) :
    Block.AreWritten nodes ∧ Laid (Outline.rowLexemes (Block.itemOutlines nodes)) text := by
  obtain ⟨texts, htexts, hassembled⟩ := bind_eq_ok_iff.mp h
  obtain rfl : assemble texts = text := by simpa [pure, Except.pure] using hassembled
  obtain ⟨hwritten, hlaid⟩ := laid_blockTexts htexts
  refine ⟨hwritten, ?_⟩
  unfold assemble
  split
  · obtain rfl : texts = [] := by simpa using ‹texts.isEmpty›
    exact hlaid
  · simpa using hlaid.append (.blank (.inr rfl) .nil) (breaks_cons (by decide) [])

end Document

end Blocks

end Stanza
