import Stanza.Proofs.Reader.Meaning

/-!
Documents read back.

Each leaf that has a meaning is written as one lexeme, which is read as the term that it means
(`Value.reads_leafChars`). From there the lexemes of a value, of the attributes and of a block run
through the reader as the grammar has them (`Value.runs_shape`, `Block.runs_outline`). So the reader
finds the meaning of every document that compiles, and two documents with the same text, whatever
their formats, mean the same (`Document.read_compile`).
-/

namespace Stanza

open Reader

/-! ### Leaves -/

theorem number?_of_isIdentifierStart {c : Char} (h : Text.isIdentifierStart c) (rest : List Char) :
    number? (c :: rest) = none := by
  have hrange := Text.toNat_of_isIdentifierStart h
  have hdigit : c.isDigit = false := by
    by_contra hdigit
    have hnine := (Char.isDigit_iff_toNat.mp (by simpa using hdigit)).2
    change c.toNat ≤ 57 at hnine
    omega
  have hne : ∀ d : Char, d.toNat < 0x41 → c ≠ d := by
    rintro d hd rfl
    omega
  have hsign := hne '-' (by decide)
  have hpoint := hne '.' (by decide)
  unfold number?
  split
  · simp_all
  · unfold unsigned?
    simp [hdigit]
    split <;> simp_all

/-- A numeral is read as its number. -/
theorem wordTerm?_of_number? {word : List Char} {q : ℚ} (h : number? word = some q) :
    wordTerm? word = some (.number q) := by
  have hword : ∀ keyword, number? keyword = none → word ≠ keyword := by
    rintro keyword hnone rfl
    simp [hnone] at h
  rw [wordTerm?, if_neg (hword _ rfl), if_neg (hword _ rfl), if_neg (hword _ rfl), h]

/-- What is written for a reference is read as such. -/
theorem wordTerm?_referenceChars {name : List Char} (h : Text.isDotted name) :
    wordTerm? (referenceChars name) = some (.traversal (referenceChars name)) := by
  have hword : ∀ keyword, '.' ∉ keyword → referenceChars name ≠ keyword := by
    rintro keyword hdot rfl
    exact hdot (dot_mem_referenceChars name)
  obtain ⟨c, hc, hstart⟩ := head_referenceChars h
  obtain ⟨rest, hrest⟩ : ∃ rest, referenceChars name = c :: rest := List.head?_eq_some_iff.mp hc
  have hnumber : number? (referenceChars name) = none := by
    rw [hrest]
    exact number?_of_isIdentifierStart hstart rest
  rw [wordTerm?, if_neg (hword _ (by decide)), if_neg (hword _ (by decide)),
    if_neg (hword _ (by decide)), hnumber]
  simp [isDotted_referenceChars h]

theorem reads_number {word : List Char} {q : ℚ} (hword : ∀ c ∈ word, Text.isWordChar c)
    (h : number? word = some q) :
    ∃ token, (Lexeme.text word).Reads token ∧ term? token = some (.number q) := by
  have hne : word ≠ [] := by
    rintro rfl
    simp [number?, unsigned?] at h
  exact ⟨.word word, Lexeme.reads_word hne hword, wordTerm?_of_number? h⟩

namespace Value

/-- What is written for a scalar is read as the term that it means. -/
theorem reads_scalarChars {v : Value} (h : v.IsScalar) :
    ∃ token, (Lexeme.text v.scalarChars).Reads token ∧
      term? token = some (v.scalarTerm Double.written) := by
  unfold IsScalar at h
  split at h
  · exact ⟨.word "null".toList, Lexeme.reads_word (by decide) (List.all_eq_true.mp (by decide)), rfl⟩
  · rename_i b
    cases b with
    | false => exact ⟨.word "false".toList, Lexeme.reads_word (by decide) (List.all_eq_true.mp (by decide)), rfl⟩
    | true => exact ⟨.word "true".toList, Lexeme.reads_word (by decide) (List.all_eq_true.mp (by decide)), rfl⟩
  · rename_i n
    exact reads_number (all_isWordChar_integerText n) (number?_integerText n)
  · rename_i s
    exact ⟨.quoted (s.toList.map .char), Lexeme.reads_quote s.toList, rfl⟩
  · rename_i x
    obtain ⟨digits, hdigits⟩ := Double.exists_numeral h
    rw [scalarChars, hdigits]
    exact reads_number (all_isWordChar_numeral hdigits) (Double.number?_numeral hdigits)
  · exact absurd h id

/-- What is written for a template is read as what its segments stand for. -/
theorem reads_template {segments : List Value} (h : (template segments).IsReadable) :
    (Lexeme.text ('"' :: Template.body segments ++ ['"'])).Reads
      (.quoted (Template.contents segments)) := by
  obtain ⟨hsegments, htorn, hdollars⟩ := h
  have hnamed : ∀ v ∈ segments, Template.IsSegment (· ≠ "") v :=
    fun v hv => (hsegments v hv).mono fun _ => Text.ne_empty_of_isDotted
  have hbody : Template.body segments = Template.body (Template.merge segments) := by
    have hsame := Template.shortened_body hnamed
    rwa [htorn] at hsame
  rw [hbody, ← Template.contents_merge]
  exact Lexeme.reads_quoted (Template.unquote_body (Template.canonical_merge segments)
    (Template.isSegment_merge hsegments) hdollars)

/-- What is written for a leaf is read as the term that it means. -/
theorem reads_leafChars {v : Value} (hreadable : v.IsReadable) (hwritten : v.IsLeaf) :
    ∃ token, (Lexeme.text v.leafChars).Reads token ∧
      term? token = some (v.leafTerm Double.written) := by
  rcases isScalar_or_of_isLeaf hwritten with
    hscalar | ⟨s, rfl⟩ | ⟨s, rfl⟩ | ⟨segments, rfl⟩ | ⟨w, rfl, hscalar⟩
  · obtain ⟨hterm, hchars⟩ := leaf_of_isScalar hscalar Double.written
    rw [hterm, hchars]
    exact reads_scalarChars hscalar
  · obtain ⟨c, hc, -⟩ := head_referenceChars hreadable
    refine ⟨.word (referenceChars s.toList), Lexeme.reads_word ?_ (all_referenceChars hreadable),
      wordTerm?_referenceChars hreadable⟩
    intro hnil
    rw [show referenceChars s.toList = [] from hnil] at hc
    simp at hc
  · exact absurd hreadable id
  · exact ⟨.quoted (Template.contents segments), reads_template hreadable, rfl⟩
  · exact reads_scalarChars hscalar

/-- What is written for a key is read as the name that it means. -/
theorem reads_keyChars {key : Value} (h : key.IsName) :
    ∃ token, (Lexeme.text key.keyChars).Reads token ∧ key? token = some key.name := by
  unfold IsName at h
  split at h
  · rename_i s
    by_cases hidentifier : Text.isIdentifier s.toList
    · rw [keyChars, if_pos hidentifier]
      exact ⟨.word s.toList, Lexeme.reads_identifier hidentifier, by simp [key?, name, hidentifier]⟩
    · rw [keyChars, if_neg hidentifier]
      exact ⟨.quoted (s.toList.map .char), Lexeme.reads_quote s.toList, rfl⟩
  · exact absurd h id

/-! ### Values -/

theorem runs_leaf {v : Value} {s t : Stack} (hreadable : v.IsReadable) (hwritten : v.IsLeaf)
    (h : give (v.leafTerm Double.written) s = some t) : Runs [.text v.leafChars] s t := by
  obtain ⟨token, hreads, hterm⟩ := reads_leafChars hreadable hwritten
  exact Runs.leaf hreads hterm h

mutual

/-- The lexemes of a value run to the term that it means. -/
theorem runs_shape {v : Value} {s t : Stack} (hwritten : v.IsWritten)
    (hreadable : ∀ leaf ∈ v.leaves, leaf.IsReadable)
    (h : give (v.term Double.written) s = some t) : Runs v.shape.lexemes s t := by
  match v with
  | .list items | .tuple items | .sequence items =>
    exact Runs.list (runs_itemShapes hwritten hreadable (fun _ => rfl) h) h
  | .object entries =>
    have hentries := runs_entryShapes hwritten.1 hwritten.2 hreadable [] s
    exact Runs.object hentries h
  | .mapping entries =>
    rw [IsWritten] at hwritten
    rw [leaves] at hreadable
    rw [term] at h
    rw [shape]
    cases hmarker : Marker.ofEntries? entries with
    | some found =>
      obtain ⟨marker, payload⟩ := found
      simp only [hmarker, List.mem_singleton, forall_eq] at hwritten hreadable h ⊢
      exact runs_leaf hreadable hwritten h
    | none =>
      simp only [hmarker] at hwritten hreadable h ⊢
      have hentries := runs_entryShapes hwritten.1 hwritten.2 hreadable [] s
      exact Runs.object hentries h
  | .null | .bool _ | .int _ | .float _ | .text _ | .bytes _ | .buffer _ | .set _ | .date _
  | .moment _ | .foreign _ | .reference _ | .raw _ | .template _ | .literal _ | .block .. =>
    exact runs_leaf (hreadable _ List.mem_cons_self) hwritten h

/-- The lexemes of the items of a list run to the list of the terms that they mean, behind those
before them. -/
theorem runs_itemShapes {items : List Value} {before : List Term} {s t : Stack}
    (hwritten : AreWritten items) (hreadable : ∀ leaf ∈ itemLeaves items, leaf.IsReadable)
    (hbefore : items = [] → before = [])
    (h : give (.list (before ++ itemTerms Double.written items)) s = some t) :
    Runs (Shape.itemLexemes (itemShapes items) ++ [.mark ']']) (.item before :: s) t := by
  match items with
  | [] =>
    obtain rfl := hbefore rfl
    exact Runs.single (Lexeme.reads_mark ']') h
  | [item] =>
    have hleaves : ∀ leaf ∈ item.leaves, leaf.IsReadable :=
      fun leaf hleaf => hreadable leaf (by simpa [itemLeaves] using hleaf)
    have hitem : Runs item.shape.lexemes (.item before :: s)
        (.behind (before ++ [item.term Double.written]) :: s) :=
      runs_shape hwritten.1 hleaves rfl
    exact hitem.append (Runs.single (Lexeme.reads_mark ']') h)
  | item :: next :: rest =>
    rw [itemLeaves] at hreadable
    obtain ⟨hfirst, hothers⟩ := List.forall_mem_append.mp hreadable
    have hitem : Runs item.shape.lexemes (.item before :: s)
        (.behind (before ++ [item.term Double.written]) :: s) :=
      runs_shape hwritten.1 hfirst rfl
    have hrest : Runs (Shape.itemLexemes (itemShapes (next :: rest)) ++ [.mark ']'])
        (.item (before ++ [item.term Double.written]) :: s) t := by
      refine runs_itemShapes hwritten.2 hothers (by simp) ?_
      simpa [itemTerms] using h
    have hcomma : Runs (.mark ',' :: (Shape.itemLexemes (itemShapes (next :: rest)) ++ [.mark ']']))
        (.behind (before ++ [item.term Double.written]) :: s) t :=
      Runs.cons (Lexeme.reads_mark ',') rfl hrest
    simpa [itemShapes, Shape.itemLexemes] using hitem.append hcomma

/-- The lexemes of the entries of an object run to the terms that they mean. -/
theorem runs_entryShapes {entries : Entries} (hnames : ∀ entry ∈ entries, entry.1.IsName)
    (hwritten : AreEntriesWritten entries)
    (hreadable : ∀ leaf ∈ entryLeaves entries, leaf.IsReadable)
    (before : List (List Piece × Term)) (s : Stack) :
    Runs (Shape.entryLexemes (entryShapes entries)) (.object before :: s)
      (.object (before ++ entryTerms Double.written entries) :: s) := by
  match entries with
  | [] =>
    rw [entryTerms, List.append_nil]
    exact Runs.refl _
  | (key, value) :: rest =>
    rw [entryLeaves] at hreadable
    obtain ⟨hvalue, hothers⟩ := List.forall_mem_append.mp hreadable
    obtain ⟨hname, hnames⟩ := List.forall_mem_cons.mp hnames
    obtain ⟨token, hreads, hkey⟩ := reads_keyChars hname
    have hfirst := Runs.entry hreads hkey
      (runs_shape (s := .value key.name :: .object before :: s) hwritten.1 hvalue rfl)
    have hrest := runs_entryShapes hnames hwritten.2 hothers
      (before ++ [(key.name, value.term Double.written)]) s
    rw [List.append_assoc] at hrest
    exact hfirst.append hrest

end

end Value

/-! ### Blocks -/

namespace Block

/-- The lexemes of the attributes of a block run to the terms that they mean. -/
theorem runs_attributes {entries : Entries} {keyword : List Char} {labels : List (List Piece)}
    (hnames : ∀ entry ∈ entries, entry.1.IsIdentifier)
    (hwritten : Value.AreEntriesWritten entries)
    (hreadable : ∀ leaf ∈ Value.entryLeaves entries, leaf.IsReadable)
    (before : List (List Piece × Term)) (s : Stack) :
    Runs (Shape.entryLexemes (Value.entryShapes entries)) (.body keyword labels before [] :: s)
      (.body keyword labels (before ++ Value.entryTerms Double.written entries) [] :: s) := by
  induction entries generalizing before with
  | nil =>
    rw [Value.entryTerms, List.append_nil]
    exact Runs.refl _
  | cons entry rest ih =>
    obtain ⟨key, value⟩ := entry
    rw [Value.entryLeaves] at hreadable
    obtain ⟨hvalue, hothers⟩ := List.forall_mem_append.mp hreadable
    obtain ⟨hname, hrestNames⟩ := List.forall_mem_cons.mp hnames
    obtain ⟨name, rfl, hidentifier⟩ : ∃ name, key = .text name ∧ Text.isIdentifier name.toList := by
      unfold Value.IsIdentifier at hname
      split at hname
      · exact ⟨_, ‹_›, hname⟩
      · exact absurd hname id
    have hfirst := Runs.attribute (s := s) hidentifier (Value.runs_shape
      (s := .value (name.toList.map .char) :: .body keyword labels before [] :: s)
      hwritten.1 hvalue rfl)
    have hrest := ih hrestNames hwritten.2 hothers
      (before ++ [(name.toList.map .char, value.term Double.written)])
    rw [List.append_assoc] at hrest
    simpa [Value.entryShapes, Shape.entryLexemes, Value.keyChars, hidentifier, Value.entryTerms,
      Value.name] using hfirst.append hrest

theorem runs_attributeShapes {attributes : Value} {keyword : List Char}
    {labels : List (List Piece)} (hwritten : AreAttributesWritten attributes)
    (hreadable : ∀ leaf ∈ attributeLeaves attributes, leaf.IsReadable) (s : Stack) :
    Runs (Shape.entryLexemes (attributeShapes attributes)) (.body keyword labels [] [] :: s)
      (.body keyword labels (attributeTerms Double.written attributes) [] :: s) := by
  cases attributes
  case mapping entries => exact runs_attributes hwritten.1 hwritten.2 hreadable [] s
  all_goals exact Runs.refl _

mutual

/-- The lexemes of a block run to what the block means. -/
theorem runs_outline {node : Value} {s t : Stack} (hwritten : IsWritten node)
    (hreadable : ∀ leaf ∈ leaves node, leaf.IsReadable)
    (h : close (reading Double.written node) s = some t) : Runs (outline node).lexemes s t := by
  obtain ⟨path, attributes, children, rfl⟩ := hwritten.exists_eq_block
  rw [leaves] at hreadable
  obtain ⟨hkeyword, hattributes, hchildren⟩ := hwritten
  obtain ⟨hown, hothers⟩ := List.forall_mem_append.mp hreadable
  refine Runs.block hkeyword ((runs_attributeShapes hattributes hown s).append ?_) h
  exact runs_childOutlines hchildren hothers (closeAll_body _ _ _ [] _ s)
termination_by sizeOf node

theorem runs_childOutlines {children : Value} {s t : Stack}
    (hwritten : AreChildrenWritten children)
    (hreadable : ∀ leaf ∈ childLeaves children, leaf.IsReadable)
    (h : closeAll (childReadings Double.written children) s = some t) :
    Runs (Outline.rowLexemes (childOutlines children)) s t := by
  match children with
  | .list items | .tuple items | .set items => exact runs_itemOutlines hwritten hreadable h
  | .null | .bool _ | .int _ | .float _ | .text _ | .bytes _ | .buffer _ | .mapping _ | .date _
  | .moment _ | .foreign _ | .reference _ | .raw _ | .template _ | .literal _ | .sequence _
  | .object _ | .block .. =>
    obtain rfl := Option.some.inj h
    exact Runs.refl s
termination_by sizeOf children

theorem runs_itemOutlines {nodes : List Value} {s t : Stack} (hwritten : AreWritten nodes)
    (hreadable : ∀ leaf ∈ itemLeaves nodes, leaf.IsReadable)
    (h : closeAll (readings Double.written nodes) s = some t) :
    Runs (Outline.rowLexemes (itemOutlines nodes)) s t := by
  match nodes with
  | [] =>
    obtain rfl := Option.some.inj h
    exact Runs.refl s
  | node :: rest =>
    rw [itemLeaves] at hreadable
    obtain ⟨hnode, hothers⟩ := List.forall_mem_append.mp hreadable
    rw [readings, closeAll] at h
    obtain ⟨between, hfirst, hrest⟩ := Option.bind_eq_some_iff.mp h
    exact (runs_outline hwritten.1 hnode hfirst).append
      (runs_itemOutlines hwritten.2 hothers hrest)
termination_by sizeOf nodes

end

end Block

/-! ### Documents -/

namespace Document

/-- The reader finds what the blocks of a document mean. -/
theorem read_of_laid {nodes : List Value} {text : List Char} (hwritten : Block.AreWritten nodes)
    (hlaid : Laid (Outline.rowLexemes (Block.itemOutlines nodes)) text)
    (hreadable : ∀ leaf ∈ Block.itemLeaves nodes, leaf.IsReadable) :
    Reader.document text = some (Block.readings Double.written nodes) :=
  document_of_laid hlaid (Block.runs_itemOutlines hwritten hreadable (closeAll_document _ []))

/-- **Documents read back.** The reader finds, in order, the keyword and the labels of every block
of a document that compiles, its attributes with their values at every depth, and its children. So
the text determines what a document means: another document that compiles to the same text, in
whatever format, means the same, with every double and every integer as the number that it is. -/
theorem read_compile {format : Format} {nodes : List Value} {text : List Char}
    (compiled : compile format nodes = .ok text)
    (readable : ∀ leaf ∈ Block.itemLeaves nodes, leaf.IsReadable) :
    Reader.document text = some (Block.readings Double.written nodes) ∧
      ∀ (other : Format) (others : List Value), compile other others = .ok text →
        (∀ leaf ∈ Block.itemLeaves others, leaf.IsReadable) →
        Block.readings Double.toRat nodes = Block.readings Double.toRat others := by
  obtain ⟨hwritten, hlaid⟩ := laid_compile compiled
  have hread := read_of_laid hwritten hlaid readable
  refine ⟨hread, fun other others compiled' readable' => ?_⟩
  obtain ⟨hwritten', hlaid'⟩ := laid_compile compiled'
  have hread' := read_of_laid hwritten' hlaid' readable'
  rw [hread, Option.some.injEq] at hread'
  exact Block.readings_toRat_eq hwritten hwritten' readable readable' hread'

/-- One and a half. -/
def threeHalves : Double := .finite false 0x18000000000000 (-52) (by decide)

/-- Two. -/
def two : Double := .finite false 0x10000000000000 (-51) (by decide)

/-- Blocks of plain data, with markers in them. -/
def plainBlocks : List Value :=
  [.block (.list [.text "a", .text "b c"])
    (.mapping
      [(.text "x", .list [.int 2, .float threeHalves,
          .mapping [(.text "$var", .text "n")]]),
        (.text "y", .mapping [(.text "$template",
          .list [.text "$", .mapping [(.text "$var", .text "m.o")], .text "\n"])])])
    (.list [.block (.list [.text "c"]) (.mapping [(.text "z", .text "\x7b")]) (.list [])])]

/-- Blocks that mean the same, with tuples, doubles and nodes. -/
def nodeBlocks : List Value :=
  [.block (.tuple [.text "a", .text "b c"])
    (.mapping
      [(.text "x", .sequence [.float two, .literal (.float threeHalves),
          .reference (.text "var.n")]),
        (.text "y", .template [.text "$", .reference (.text "m.o"), .text "\n"])])
    (.tuple [.block (.list [.text "c"]) (.mapping [(.text "z", .template [.text "\x7b"])]) .null])]

/-- Plain blocks and nodes compile to one text, from which their common meaning is read. -/
theorem read_compile_plainBlocks :
    (∀ leaf ∈ Block.itemLeaves plainBlocks, leaf.IsReadable) ∧
      (∀ leaf ∈ Block.itemLeaves nodeBlocks, leaf.IsReadable) ∧
        ∃ text, compile {} plainBlocks = .ok text ∧
          compile { alignEquals := true } nodeBlocks = .ok text ∧
          Reader.document text = some (Block.readings Double.written plainBlocks) ∧
          Block.readings Double.toRat plainBlocks = Block.readings Double.toRat nodeBlocks := by
  have htemplate :
      (Value.template [.text "$", .reference (.text "m.o"), .text "\n"]).IsReadable := by
    refine ⟨?_, by decide, by decide⟩
    simp only [List.forall_mem_cons]
    exact ⟨trivial, (by decide : Text.isDotted "m.o".toList), trivial, by simp⟩
  have hplain : ∀ leaf ∈ Block.itemLeaves plainBlocks, leaf.IsReadable := by
    change ∀ leaf ∈ [Value.int 2, .float threeHalves,
      .reference (.text "n"), .template [.text "$", .reference (.text "m.o"), .text "\n"],
      .text "\x7b"], leaf.IsReadable
    simp only [List.forall_mem_cons]
    exact ⟨trivial, trivial, (by decide : Text.isDotted "n".toList), htemplate, trivial, by simp⟩
  have hnodes : ∀ leaf ∈ Block.itemLeaves nodeBlocks, leaf.IsReadable := by
    change ∀ leaf ∈ [Value.float two, .literal (.float threeHalves), .reference (.text "var.n"),
      .template [.text "$", .reference (.text "m.o"), .text "\n"], .template [.text "\x7b"]],
      leaf.IsReadable
    simp only [List.forall_mem_cons]
    refine ⟨trivial, trivial, (by decide : Text.isDotted "var.n".toList), htemplate, ?_, by simp⟩
    exact ⟨by simp [Template.IsSegment], by decide, by decide⟩
  let text : List Char := "a \"b c\" \x7b\n  x = [2, 1.5, var.n]\n".toList ++
    "  y = \"$\x7b\"$\"\x7d$\x7bm.o\x7d\\n\"\n\n  c \x7b\n    z = \"\x7b\"\n  \x7d\n\x7d\n".toList
  have hcompiled : compile {} plainBlocks = .ok text := rfl
  have hcompiled' : compile { alignEquals := true } nodeBlocks = .ok text := rfl
  obtain ⟨hread, hsame⟩ := read_compile hcompiled hplain
  exact ⟨hplain, hnodes, text, hcompiled, hcompiled', hread, hsame _ nodeBlocks hcompiled' hnodes⟩

end Document

end Stanza
