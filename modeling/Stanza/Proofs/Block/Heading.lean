import Stanza.Block.Walk
import Stanza.Proofs.Block.Forest
import Stanza.Proofs.Layout.Heading

/-!
Walks and texts.

A walk visits blocks without compiling them, and a document is read from top to bottom without
knowing blocks. Both come to the same blocks in the same order: the headings of a document that
compiles are, one for one, those of the blocks that a walk visits, and each is indented by as many
levels as there are blocks around it (`Document.headings_compile`).

* `Block.headings_lines`, `Block.headings_itemLines`: a block and blocks in a row.
-/

namespace Stanza

theorem Value.IsIdentifier.isName {key : Value} (h : key.IsIdentifier) : key.IsName := by
  unfold Value.IsIdentifier at h
  split at h
  · rename_i s
    rintro rfl
    exact absurd h (by decide)
  · exact absurd h id

/-- The heading of a visited block: its keyword and its labels in quotes, behind the margin of the
level it is on. -/
def Heading.IsOf (width : Nat) (heading : Heading) (visit : Visit) : Prop :=
  ∃ (keyword : String) (labels : List String) (level : Nat),
    visit.keyword = .ok (.text keyword) ∧ visit.labels = .ok (labels.map .text) ∧
    visit.path.length = level + 1 ∧
    heading = ⟨width * level, Heading.header keyword labels ++ [' ', '\x7b']⟩

namespace Block

mutual

/-- A block whose children, like those of all blocks in it, are a list. -/
def IsListed : Value → Prop
  | .block _ _ (.list children) => AreListed children
  | _ => False

/-- Blocks whose children, like those of all blocks in them, are lists. -/
def AreListed : List Value → Prop
  | [] => True
  | node :: rest => IsListed node ∧ AreListed rest

end

theorem IsListed.exists_eq_block {node : Value} (h : IsListed node) :
    ∃ blockPath attributes children, node = .block blockPath attributes (.list children) ∧
      AreListed children := by
  unfold IsListed at h
  split at h
  · exact ⟨_, _, _, rfl, h⟩
  · exact absurd h id

section Walk

variable {format : Format}

/-- The headings of lines at a level. -/
def headingsAt (format : Format) (level : Nat) (ls : List Line) : List Heading :=
  ls.flatMap fun line => headings (line.write format.indentWidth level)

theorem headingsAt_append (level : Nat) (above below : List Line) :
    headingsAt format level (above ++ below) =
      headingsAt format level above ++ headingsAt format level below :=
  List.flatMap_append

theorem headingsAt_cons (level : Nat) (line : Line) (below : List Line) :
    headingsAt format level (line :: below) =
      headings (line.write format.indentWidth level) ++ headingsAt format level below :=
  List.flatMap_cons

theorem headingsAt_deepen (level : Nat) (ls : List Line) :
    headingsAt format level (ls.map Line.deepen) = headingsAt format (level + 1) ls := by
  rw [headingsAt, headingsAt, List.flatMap_map]
  congr 1
  funext line
  cases line with
  | blank => rfl
  | code depth content =>
    rw [Line.deepen, Line.write, Line.write]
    congr 3
    push_cast
    omega

theorem headingsAt_of_quiet {ls : List Line} (h : ∀ line ∈ ls, line.IsQuiet) (level : Nat) :
    headingsAt format level ls = [] :=
  List.flatMap_eq_nil_iff.mpr fun line hline => (h line hline).headings_eq _ _

/-- The lines of attributes are no headings. -/
theorem quiet_attributes {attributes : Value} (style : Style)
    (hwritten : AreAttributesWritten attributes)
    (hnames : ∀ leaf ∈ attributeLeaves attributes, leaf.HasDottedNames) :
    ∀ line ∈ (Assignment.renderAll style
        (Shape.layoutEntries style (attributeShapes attributes))).flatMap Rendered.lines,
      line.IsQuiet := by
  cases attributes
  case mapping entries =>
    obtain ⟨hkeys, hentries⟩ := hwritten
    refine Assignment.isQuiet_renderAll style ?_
    exact Value.isQuiet_layoutEntries style (fun entry hmem => (hkeys entry hmem).isName)
      hentries hnames
  all_goals
    exact Assignment.isQuiet_renderAll style (by simp [attributeShapes, Shape.layoutEntries])

theorem headings_header {keyword : String} (hkeyword : Text.isIdentifier keyword.toList)
    (labels : List String) (level : Nat) :
    headings ((Line.code 0 (Heading.header keyword labels ++ [' ', '\x7b'])).write
        format.indentWidth level) =
      [⟨format.indentWidth * level, Heading.header keyword labels ++ [' ', '\x7b']⟩] := by
  have hname : '\n' ∉ keyword.toList := by
    intro hmem
    exact absurd ((Text.isIdentifier_iff.mp hkeyword).2 _ hmem) (by decide)
  have hbreak : '\n' ∉ Heading.header keyword labels := by
    intro hmem
    rcases mem_joined hmem with hmem | ⟨text, htext, hmem⟩
    · exact absurd hmem (by decide)
    · rcases List.mem_cons.mp htext with rfl | htext
      · exact hname hmem
      · obtain ⟨label, -, rfl⟩ := List.mem_map.mp htext
        simp [Text.Quoted.quote, Text.Quoted.newline_not_mem_escape] at hmem
  have hwidth : (format.indentWidth * ((level : Int) + (0 : Nat))).toNat =
      format.indentWidth * level := by
    rw [Nat.cast_zero, add_zero]
    exact_mod_cast Int.toNat_natCast _
  rw [Line.write, indent, hwidth, headings_of_not_mem, Heading.ofLine?_margin,
    Heading.ofLine?_header hkeyword]
  · rfl
  · simp [List.mem_replicate, hbreak]

mutual

/-- The headings of a block are those of the blocks that a walk over it visits. -/
theorem headings_lines {path : Path} {node : Value} {ls : List Line}
    (h : lines format.toStyle path node = .ok ls) (hlisted : IsListed node)
    (hnames : ∀ leaf ∈ leaves node, leaf.HasDottedNames) :
    ∃ visits, walk path node = .ok visits ∧
      List.Forall₂ (Heading.IsOf format.indentWidth) (headingsAt format path.length ls) visits := by
  obtain ⟨blockPath, attributes, children, rfl, hchildren⟩ := hlisted.exists_eq_block
  obtain ⟨keyword, labels, body, nested, hitems, hrow, -, hkeyword, hwritten, hbody, hnested,
    rfl⟩ := lines_block_eq_ok h
  rw [leaves, List.forall_mem_append] at hnames
  obtain ⟨visits, hwalk, hvisits⟩ := headings_itemLines hnested hchildren hnames.2
  let parts : List Value := .text keyword :: labels.map .text
  have haddress : address blockPath = .ok (dotted parts) := by
    have hwritable : Value.areWritable parts := areWritable_of_texts (by simp [parts])
    simp [address, hitems, hwritable, parts]
  refine ⟨⟨path ++ [.text (dotted parts)], blockPath, attributes, .list children⟩ :: visits, ?_, ?_⟩
  · simp [walk, haddress, walkChildren, hwalk, parts, bind, Except.bind, pure, Except.pure]
  · -- only the header and the blocks inside count: attributes and the last brace are no headings
    have hquiet : headingsAt format (path.length + 1) body = [] :=
      headingsAt_of_quiet (hbody ▸ quiet_attributes _ hwritten hnames.1) _
    have hclosing : headingsAt format path.length [.code 0 ['\x7d']] = [] :=
      headingsAt_of_quiet (List.forall_mem_singleton.mpr Line.isQuiet_closing) _
    have hrest : headingsAt format path.length
        ((body ++ nested).map Line.deepen ++ [.code 0 ['\x7d']]) =
          headingsAt format (path.length + 1) nested := by
      rw [headingsAt_append, headingsAt_deepen, headingsAt_append, hquiet, hclosing]
      simp
    rw [Rendered.lines, ← Heading.header, headingsAt_cons, headings_header hkeyword, hrest]
    refine .cons ⟨keyword, labels, path.length, ?_, ?_, ?_, ?_⟩ ?_
    · simp [Visit.keyword, Visit.parts, hrow, bind, Except.bind]
    · simp [Visit.labels, Visit.parts, hrow, bind, Except.bind, pure, Except.pure]
    · simp
    · rfl
    · simpa using hvisits
termination_by sizeOf node

/-- The headings of blocks in a row are those of the blocks that a walk over them visits. -/
theorem headings_itemLines {path : Path} {follows : Bool} {nodes : List Value} {ls : List Line}
    (h : itemLines format.toStyle path follows nodes = .ok ls) (hlisted : AreListed nodes)
    (hnames : ∀ leaf ∈ itemLeaves nodes, leaf.HasDottedNames) :
    ∃ visits, walkItems path nodes = .ok visits ∧
      List.Forall₂ (Heading.IsOf format.indentWidth) (headingsAt format path.length ls) visits := by
  match nodes with
  | [] =>
    obtain rfl : [] = ls := by simpa [itemLines] using h
    exact ⟨[], rfl, .nil⟩
  | node :: rest =>
    obtain ⟨first, hfirst, h⟩ := bind_eq_ok_iff.mp h
    obtain ⟨others, hothers, h⟩ := bind_eq_ok_iff.mp h
    obtain rfl := Except.ok.inj h
    rw [itemLeaves, List.forall_mem_append] at hnames
    obtain ⟨visits, hwalk, hvisits⟩ := headings_lines hfirst hlisted.1 hnames.1
    obtain ⟨more, hmore, hmoreVisits⟩ := headings_itemLines hothers hlisted.2 hnames.2
    refine ⟨visits ++ more, ?_, ?_⟩
    · simp [walkItems, hwalk, hmore, bind, Except.bind, pure, Except.pure]
    · have hseparator : headingsAt format path.length (separator format.toStyle follows) = [] := by
        unfold separator
        split
        · rfl
        · rfl
      rw [headingsAt_append, headingsAt_append, hseparator]
      exact List.rel_append hvisits hmoreVisits
termination_by sizeOf nodes

end

/-- The headings of the texts of blocks, one after another. -/
theorem headings_blockTexts {nodes : List Value} {texts : List (List Char)}
    (h : Document.blockTexts format nodes = .ok texts) (hlisted : AreListed nodes)
    (hnames : ∀ leaf ∈ itemLeaves nodes, leaf.HasDottedNames) :
    ∃ visits, walkItems [] nodes = .ok visits ∧
      List.Forall₂ (Heading.IsOf format.indentWidth) (texts.flatMap headings) visits := by
  induction nodes generalizing texts with
  | nil =>
    obtain rfl := Except.ok.inj h
    exact ⟨[], rfl, .nil⟩
  | cons node rest ih =>
    obtain ⟨first, hfirst, h⟩ := bind_eq_ok_iff.mp h
    obtain ⟨others, hothers, h⟩ := bind_eq_ok_iff.mp h
    obtain rfl := Except.ok.inj h
    obtain ⟨ls, hlines, hfirst⟩ := bind_eq_ok_iff.mp hfirst
    obtain rfl := Except.ok.inj hfirst
    rw [itemLeaves, List.forall_mem_append] at hnames
    obtain ⟨visits, hwalk, hvisits⟩ := headings_lines hlines hlisted.1 hnames.1
    obtain ⟨more, hmore, hmoreVisits⟩ := ih hothers hlisted.2 hnames.2
    refine ⟨visits ++ more, ?_, ?_⟩
    · simp [walkItems, hwalk, hmore, bind, Except.bind, pure, Except.pure]
    · rw [List.flatMap_cons, headings_writeAll]
      exact List.rel_append hvisits hmoreVisits

end Walk

end Block

namespace Document

/-- The headings of a document are those of its blocks. -/
theorem headings_assemble (texts : List (List Char)) :
    headings (assemble texts) = texts.flatMap headings := by
  unfold assemble
  split
  · rename_i hnone
    rw [List.isEmpty_iff.mp hnone]
    rfl
  · have hparts : ∀ above below : List Char,
        headings (above ++ ['\n', '\n'] ++ below) = headings above ++ headings below := by
      intro above below
      rw [List.append_assoc]
      exact (headings_append_newline above ('\n' :: below)).trans
        (congrArg (headings above ++ ·) (headings_append_newline [] below))
    rw [headings_append_newline, headings_joined hparts, headings_nil, List.append_nil]

/-- **Walks go down the text.** The headings of a document that compiles, from top to bottom, are
those of the blocks that a walk visits, one for one and in order, and each is indented by a level
for every block around it. -/
theorem headings_compile {format : Format} {nodes : List Value} {text : List Char}
    (compiled : compile format nodes = .ok text) (listed : Block.AreListed nodes)
    (dotted : ∀ leaf ∈ Block.itemLeaves nodes, leaf.HasDottedNames) :
    ∃ visits, Block.walkAll (.list nodes) = .ok visits ∧
      List.Forall₂ (Heading.IsOf format.indentWidth) (headings text) visits := by
  obtain ⟨texts, htexts, h⟩ := bind_eq_ok_iff.mp compiled
  obtain rfl := Except.ok.inj h
  rw [headings_assemble]
  exact Block.headings_blockTexts htexts listed dotted

/-- Blocks in blocks, with braces in strings, keys and lists. -/
def bracedBlocks : List Value :=
  [.block (.tuple [.text "a", .text "b \x7b"])
    (.mapping
      [(.text "x", .list
          [.text "y \x7b", .mapping [(.text "k \x7b", .mapping [(.text "l", .null)])]]),
        (.text "z", .template [.text "\x7b\n", .reference (.text "m.o"), .text "c \x7b"])])
    (.list
      [.block (.list [.text "c"]) .null (.list []),
        .block (.list [.text "a", .text "="]) (.mapping [(.text "c", .reference (.text "n"))])
          (.list [])]),
    .block (.list [.text "c"]) (.mapping []) (.list [])]

/-- Of the lines of these blocks that end in a brace, four are headings. -/
theorem headings_bracedBlocks :
    Block.AreListed bracedBlocks ∧
      (∀ leaf ∈ Block.itemLeaves bracedBlocks, leaf.HasDottedNames) ∧
      ∃ text visits, compile { alignEquals := true } bracedBlocks = .ok text ∧
        headings text =
          [⟨0, "a \"b \x7b\" \x7b".toList⟩, ⟨2, "c \x7b".toList⟩, ⟨2, "a \"=\" \x7b".toList⟩,
            ⟨0, "c \x7b".toList⟩] ∧
        Block.walkAll (.list bracedBlocks) = .ok visits ∧
        List.Forall₂ (Heading.IsOf 2) (headings text) visits := by
  have hlisted : Block.AreListed bracedBlocks := ⟨⟨trivial, trivial, trivial⟩, trivial, trivial⟩
  have hnames : ∀ leaf ∈ Block.itemLeaves bracedBlocks, leaf.HasDottedNames := by
    change ∀ leaf ∈ [Value.text "y \x7b", .null,
      .template [.text "\x7b\n", .reference (.text "m.o"), .text "c \x7b"],
      .reference (.text "n")], leaf.HasDottedNames
    simp only [List.forall_mem_cons]
    refine ⟨trivial, trivial, ?_, (by decide : Text.isDotted "n".toList), by simp⟩
    intro name hname
    obtain rfl : name = "m.o" := by simpa using hname
    decide
  let text : List Char :=
    "a \"b \x7b\" \x7b\n  x = [\n    \"y \x7b\",\n    \x7b\n".toList ++
      "      \"k \x7b\" = \x7b\n        l = null\n      \x7d\n    \x7d\n  ]\n".toList ++
      "  z = \"\x7b\\n$\x7bm.o\x7dc \x7b\"\n\n  c \x7b\n  \x7d\n\n".toList ++
      "  a \"=\" \x7b\n    c = var.n\n  \x7d\n\x7d\n\nc \x7b\n\x7d\n".toList
  have hcompiled : compile { alignEquals := true } bracedBlocks = .ok text := rfl
  obtain ⟨visits, hwalk, hvisits⟩ := headings_compile hcompiled hlisted hnames
  exact ⟨hlisted, hnames, text, visits, hcompiled, by decide +kernel, hwalk, hvisits⟩

end Document

end Stanza
