import Stanza.Proofs.Block.Forest

/-!
The ways to present blocks as data.

A block has one plain form as data, `Definition.ofBlock`: a mapping with the path as a list, the
attributes as a mapping and the children as a list, whether or not there are any. Authors shorten
it. `Definition.Presents data node` allows every shorthand, at every depth independently: a path as
one text with blanks between its parts (`Text.Spaced`), no attributes or children given as null or
left out, a single child without the list around it, and entries in any order. `PresentsDocument`
adds the four forms of a whole document. Whatever the presentation, loading gives back the blocks
(`Document.blocks_of_presents`).

* `Text.words_of_spaced`: what the words of a spaced text are.
* `Definition.toBlock_of_presents`: one block, by induction on how the data presents it.
-/

namespace Stanza

/-! ### Words -/

namespace Text

/-- Words in a row, with blanks between them and perhaps around them. No word is empty or has a
blank in it. -/
inductive Spaced : List (List Char) → List Char → Prop where
  | nil : Spaced [] []
  | blank {c : Char} {expected : List (List Char)} {text : List Char} :
      isBlank c → Spaced expected text → Spaced expected (c :: text)
  | word {word rest : List Char} {others : List (List Char)} :
      word ≠ [] → (∀ c ∈ word, isBlank c = false) → (∀ c, rest.head? = some c → isBlank c) →
      Spaced others rest → Spaced (word :: others) (word ++ rest)

theorem fields_append {word text field : List Char} {others : List (List Char)}
    (h : ∀ c ∈ word, isBlank c = false) (hfields : fields text = field :: others) :
    fields (word ++ text) = (word ++ field) :: others := by
  induction word with
  | nil => exact hfields
  | cons c word ih =>
    obtain ⟨hc, hword⟩ := List.forall_mem_cons.mp h
    simp [fields, hc, ih hword]

/-- A word ends where a blank or nothing follows. -/
theorem words_append_of_word {word rest : List Char} (hne : word ≠ [])
    (hword : ∀ c ∈ word, isBlank c = false) (hrest : ∀ c, rest.head? = some c → isBlank c) :
    words (word ++ rest) = word :: words rest := by
  have hfields : ∃ others, fields rest = [] :: others := by
    cases rest with
    | nil => exact ⟨[], rfl⟩
    | cons c rest => exact ⟨fields rest, by simp [fields, hrest c rfl]⟩
  obtain ⟨others, hothers⟩ := hfields
  simp [words, fields_append hword hothers, hothers, hne]

theorem words_of_spaced {expected : List (List Char)} {text : List Char}
    (h : Spaced expected text) : words text = expected := by
  induction h with
  | nil => rfl
  | blank hc _ ih =>
    rw [← ih]
    simp [words, fields, hc]
  | word hne hword hrest _ ih => rw [words_append_of_word hne hword hrest, ih]

/-- A letter by itself is a word. -/
theorem Spaced.letter {c : Char} (hc : isBlank c = false) : Spaced [[c]] [c] := by
  simpa using Spaced.word (List.cons_ne_nil c []) (by simpa using hc) (by simp) .nil

/-- A letter is a word when a blank follows it. -/
theorem Spaced.letter_blank {c blank : Char} {others : List (List Char)} {rest : List Char}
    (hc : isBlank c = false) (hblank : isBlank blank) (h : Spaced others rest) :
    Spaced ([c] :: others) (c :: blank :: rest) :=
  .word (List.cons_ne_nil c []) (by simpa using hc) (by simpa using hblank) (.blank hblank h)

end Text

namespace Definition

open Block

/-! ### Blocks as data -/

mutual

/-- The plain form of a block as data. That of another value means nothing. -/
def ofBlock : Value → Value
  | .block path attributes children =>
      .mapping [(.text "block", path), (.text "attributes", attributes),
        (.text "child", ofChildren children)]
  | v => v

/-- The plain form of the children of a block. -/
def ofChildren : Value → Value
  | .list items => .list (ofBlocks items)
  | v => v

/-- The plain forms of some blocks. -/
def ofBlocks : List Value → List Value
  | [] => []
  | item :: rest => ofBlock item :: ofBlocks rest

end

/-- What the blocks of data have: texts as the parts of their paths, and a mapping as their
attributes. -/
def IsPlain (parts : List Value) (attributes : Value) : Prop :=
  (∃ texts : List String, parts = texts.map .text) ∧ ∃ entries, attributes = .mapping entries

/-- Data for the path of a block: its parts as a list, or as the words of a text. -/
inductive PresentsPath : Value → List String → Prop where
  | parts (texts : List String) : PresentsPath (.list (texts.map .text)) texts
  | words {s : String} {texts : List String} :
      Text.Spaced (texts.map String.toList) s.toList → PresentsPath (.text s) texts

/-- Data for the attributes of a block, if it has an entry for them. -/
inductive PresentsAttributes : Option Value → Entries → Prop where
  | given (entries : Entries) : PresentsAttributes (some (.mapping entries)) entries
  | null : PresentsAttributes (some .null) []
  | omitted : PresentsAttributes none []

mutual

/-- Data for a block: a mapping whose entries, in any order, are those of the path, the attributes
and the children. -/
inductive Presents : Value → Value → Prop where
  | mapping {entries attributes : Entries} {blockPath : Value} {texts : List String}
      {children : List Value} :
      (∀ entry ∈ entries, isDefinitionKey entry.1) →
      entries.find? "block" = some blockPath → PresentsPath blockPath texts →
      PresentsAttributes (entries.find? "attributes") attributes →
      PresentsChildren (entries.find? "child") children →
      Presents (.mapping entries)
        (.block (.list (texts.map .text)) (.mapping attributes) (.list children))

/-- Data for the children of a block, if it has an entry for them. -/
inductive PresentsChildren : Option Value → List Value → Prop where
  | row {items nodes : List Value} :
      PresentsRow items nodes → PresentsChildren (some (.list items)) nodes
  | single {data node : Value} : Presents data node → PresentsChildren (some data) [node]
  | null : PresentsChildren (some .null) []
  | omitted : PresentsChildren none []

/-- Data for blocks in a row. -/
inductive PresentsRow : List Value → List Value → Prop where
  | nil : PresentsRow [] []
  | cons {data node : Value} {items nodes : List Value} :
      Presents data node → PresentsRow items nodes → PresentsRow (data :: items) (node :: nodes)

end

/-- Data for a document. -/
inductive PresentsDocument : Value → List Value → Prop where
  | row {items nodes : List Value} : PresentsRow items nodes → PresentsDocument (.list items) nodes
  | named {items nodes : List Value} :
      PresentsRow items nodes → PresentsDocument (.mapping [(.text "nodes", .list items)]) nodes
  | single {data node : Value} : Presents data node → PresentsDocument data [node]
  | null : PresentsDocument .null []

/-! ### The plain form -/

mutual

/-- The plain form of a block presents it. -/
theorem presents_ofBlock {node : Value} (h : IsTree IsPlain node) :
    Presents (ofBlock node) node := by
  obtain ⟨parts, attributes, children, rfl, ⟨⟨texts, rfl⟩, entries, rfl⟩, hchildren⟩ :=
    h.exists_eq_block
  have hrow := presents_ofBlocks hchildren
  rw [ofBlock, ofChildren]
  refine .mapping ?_ rfl (.parts texts) (.given entries) (.row hrow)
  simp [isDefinitionKey]
termination_by sizeOf node

/-- The plain forms of some blocks present them. -/
theorem presents_ofBlocks {nodes : List Value} (h : AreTrees IsPlain nodes) :
    PresentsRow (ofBlocks nodes) nodes := by
  match nodes with
  | [] => exact .nil
  | node :: rest => exact .cons (presents_ofBlock h.1) (presents_ofBlocks h.2)
termination_by sizeOf nodes

end

/-! ### Loading what is presented -/

variable {path : Path} {entries : Entries}

theorem unknownKeys_eq_nil (h : ∀ entry ∈ entries, isDefinitionKey entry.1) :
    unknownKeys entries = .ok [] := by
  have hnone : (entries.map Prod.fst).filter (fun key => !isDefinitionKey key) = [] := by
    simpa [List.filter_eq_nil_iff] using h
  rw [unknownKeys, hnone]
  rfl

theorem parts_of_presents {data : Value} {texts : List String} (h : PresentsPath data texts) :
    parts path data = .ok (texts.map .text) := by
  cases h with
  | parts => rfl
  | words hspaced =>
    simp [parts, Text.words_of_spaced hspaced, Function.comp_def]

theorem attributes_of_presents {given : Option Value} (h : PresentsAttributes given entries) :
    attributes path given = .ok (.mapping entries) := by
  cases h with
  | given => rfl
  | null => rfl
  | omitted => rfl

theorem exists_locator_eq_ok (texts : List String) :
    ∃ found, locator (texts.map .text) = .ok found := by
  have hwritable : Value.areWritable (texts.map .text) := areWritable_of_texts (by simp)
  exact ⟨_, by rw [locator, if_pos hwritable]⟩

/-- The children of a definition are those of its entry for them. -/
theorem childrenIn_eq (entries : Entries) (path : Path) :
    childrenIn entries path =
      (entries.find? "child").elim (.ok []) fun children => childBlocks children path := by
  induction entries with
  | nil => simp [childrenIn, Entries.find?]
  | cons entry rest ih =>
    obtain ⟨key, value⟩ := entry
    cases key
    case text s =>
      rw [childrenIn, Entries.find?, ih]
      split
      · rfl
      · rfl
    all_goals simpa [childrenIn, Entries.find?] using ih

theorem Presents.exists_eq_mapping {data node : Value} (h : Presents data node) :
    ∃ entries : Entries, data = .mapping entries ∧ (entries.find? "block").isSome := by
  cases h with
  | mapping _ hfind => exact ⟨_, rfl, by simp [hfind]⟩

mutual

/-- **Presented data makes the block.** -/
theorem toBlock_of_presents {data node : Value} (path : Path) (h : Presents data node) :
    toBlock data path = .ok node := by
  match h with
  | @Presents.mapping entries attributes blockPath texts children hkeys hfind hpath hattributes
      hchildren =>
    obtain ⟨found, hfound⟩ := exists_locator_eq_ok texts
    have hnested := childBlocks_of_presents (path ++ [found]) hchildren
    rw [← childrenIn_eq] at hnested
    rw [toBlock, build, unknownKeys_eq_nil hkeys]
    simp [bind, Except.bind, pure, Except.pure, hfind, parts_of_presents hpath, hfound,
      attributes_of_presents hattributes, hnested]

theorem childBlocks_of_presents {given : Option Value} {nodes : List Value} (path : Path)
    (h : PresentsChildren given nodes) :
    (given.elim (.ok []) fun children => childBlocks children path) = .ok nodes := by
  match h with
  | .row hrow => simpa [childBlocks] using toBlocks_of_presents path hrow
  | .single hsingle =>
    have hnode := toBlock_of_presents path hsingle
    obtain ⟨entries, rfl, -⟩ := hsingle.exists_eq_mapping
    rw [toBlock] at hnode
    simp [childBlocks, hnode, bind, Except.bind, pure, Except.pure]
  | .null => simp [childBlocks]
  | .omitted => rfl

theorem toBlocks_of_presents {items nodes : List Value} (path : Path)
    (h : PresentsRow items nodes) : toBlocks items path = .ok nodes := by
  match h with
  | .nil => rw [toBlocks]
  | .cons hfirst hrest =>
    simp [toBlocks, toBlock_of_presents path hfirst, toBlocks_of_presents path hrest, bind,
      Except.bind, pure, Except.pure]

end

theorem ofDocument_of_presents {data : Value} {nodes : List Value}
    (h : PresentsDocument data nodes) :
    ∃ items, ofDocument data = .ok items ∧ PresentsRow items nodes := by
  cases h with
  | row hrow => exact ⟨_, rfl, hrow⟩
  | @named items nodes hrow =>
    refine ⟨items, ?_, hrow⟩
    cases items with
    | nil => rfl
    | cons item rest => rfl
  | single hsingle =>
    obtain ⟨entries, rfl, hblock⟩ := hsingle.exists_eq_mapping
    refine ⟨[.mapping entries], ?_, .cons hsingle .nil⟩
    unfold ofDocument
    split
    · simp_all
    · simp_all
    · simp_all [Entries.find?]
    · simp_all
    · simp_all
  | null => exact ⟨[], rfl, .nil⟩

end Definition

namespace Document

open Definition

/-- **Loading undoes serialising, whatever the presentation.** The plain form of blocks is one way
to present them, and of all data that presents them loading makes these blocks, in the same order
and with the same attributes and children. -/
theorem blocks_of_presents {nodes : List Value} (h : Block.AreTrees IsPlain nodes) :
    PresentsDocument (.list (ofBlocks nodes)) nodes ∧
      ∀ source data, PresentsDocument data nodes → blocks source data = .ok nodes := by
  refine ⟨.row (presents_ofBlocks h), fun source data hdata => ?_⟩
  obtain ⟨items, hitems, hrow⟩ := ofDocument_of_presents hdata
  simp [blocks, hitems, toBlocks_of_presents [] hrow, Except.mapError]

/-- Two blocks, of which the first has a block in a block. -/
def shortenedBlocks : List Value :=
  [.block (.list [.text "a", .text "b"]) (.mapping [(.text "x", .int 1)])
    (.list [.block (.list [.text "c"]) (.mapping [])
      (.list [.block (.list [.text "d", .text "e f"]) (.mapping []) (.list [])])]),
    .block (.list [.text "g"]) (.mapping []) (.list [])]

/-- Data for these blocks with every shorthand that applies to one of them. -/
def shortenedData : Value :=
  .mapping [(.text "nodes", .list
    [.mapping
      [(.text "child", .mapping
          [(.text "block", .text "c"), (.text "child", .list
            [.mapping [(.text "block", .list [.text "d", .text "e f"]),
              (.text "attributes", .null)]])]),
        (.text "block", .text " a\t\tb\n"), (.text "attributes", .mapping [(.text "x", .int 1)])],
      .mapping [(.text "block", .text "g"), (.text "child", .null)]])]

/-- The blocks come out of the shortened data. -/
theorem blocks_of_presents_shortenedData :
    Block.AreTrees IsPlain shortenedBlocks ∧ PresentsDocument shortenedData shortenedBlocks ∧
      blocks anonymousSource shortenedData = .ok shortenedBlocks := by
  have hplain : ∀ (texts : List String) (entries : Entries),
      IsPlain (texts.map .text) (.mapping entries) :=
    fun texts entries => ⟨⟨texts, rfl⟩, entries, rfl⟩
  have htrees : Block.AreTrees IsPlain shortenedBlocks :=
    ⟨⟨hplain ["a", "b"] _, ⟨hplain ["c"] _, ⟨hplain ["d", "e f"] _, trivial⟩, trivial⟩, trivial⟩,
      ⟨hplain ["g"] _, trivial⟩, trivial⟩
  have hpath : PresentsPath (.text " a\t\tb\n") ["a", "b"] := by
    have hlast : Text.Spaced [['b']] ['b', '\n'] := .letter_blank (by decide) (by decide) .nil
    have hfirst : Text.Spaced [['a'], ['b']] ['a', '\t', '\t', 'b', '\n'] :=
      .letter_blank (by decide) (by decide) (.blank (by decide) hlast)
    exact .words (.blank (by decide) hfirst)
  have hword : ∀ c : Char, Text.isBlank c = false →
      PresentsPath (.text (String.ofList [c])) [String.ofList [c]] := by
    intro c hc
    refine .words ?_
    rw [List.map_singleton, String.toList_ofList]
    exact .letter hc
  have hdata : PresentsDocument shortenedData shortenedBlocks := by
    refine .named (.cons (.mapping (by decide) rfl hpath (.given _) (.single ?_)) (.cons ?_ .nil))
    · refine .mapping (by decide) rfl (hword 'c' (by decide)) .omitted (.row ?_)
      exact .cons (.mapping (by decide) rfl (.parts ["d", "e f"]) .null .omitted) .nil
    · exact .mapping (by decide) rfl (hword 'g' (by decide)) .omitted .null
  exact ⟨htrees, hdata, (blocks_of_presents htrees).2 anonymousSource _ hdata⟩

end Document

end Stanza
