import Stanza.Proofs.Layout.Outline
import Stanza.Proofs.Number.Written
import Stanza.Proofs.Reader.Meaning

/-!
Headings in a text.

A line that ends in an opening brace and starts, behind its margin, with an identifier that is not
given a value is the `Heading` of a block. `headings` reads the headings of a text from top to
bottom, and knows nothing but its lines. Below the heading of a block no line of an attribute is
one, whatever the strings of its value hold: the line is a closing bracket, ends in a character that
is no brace, is a lone brace, or gives a value to a key.

* `headings_writeAll`: the headings of lines are those of each line.
* `Shape.isQuiet_layout`, `Attributes.isQuiet_renderAll`: values and attributes have no headings.
-/

namespace Stanza

/-- The heading of a block: how far it is indented, and what the line says behind its margin. -/
structure Heading where
  margin : Nat
  content : List Char
  deriving DecidableEq, Repr

namespace Heading

/-- Whether a content can be a heading: it ends in a brace, and begins with an identifier that no
equals sign follows. -/
def isContent (content : List Char) : Bool :=
  content.getLast? == some '\x7b' && Text.isIdentifier (content.takeWhile Text.isIdentifierRest) &&
    ((content.dropWhile Text.isIdentifierRest).dropWhile (· = ' ')).head? != some '='

/-- The heading that a line is, if it is one. -/
def ofLine? (line : List Char) : Option Heading :=
  let content := line.dropWhile (· = ' ')
  if isContent content then some ⟨line.length - content.length, content⟩ else none

end Heading

/-- The headings of a text from top to bottom. -/
def headings (text : List Char) : List Heading := (text.splitOn '\n').filterMap Heading.ofLine?

/-! ### Lines -/

theorem joined_cons_cons (separator text next : List Char) (rest : List (List Char)) :
    joined separator (text :: next :: rest) =
      text ++ separator ++ joined separator (next :: rest) :=
  rfl

theorem mem_joined {c : Char} {separator : List Char} {texts : List (List Char)}
    (h : c ∈ joined separator texts) : c ∈ separator ∨ ∃ text ∈ texts, c ∈ text := by
  induction texts with
  | nil => simp [joined] at h
  | cons text rest ih =>
    cases rest with
    | nil => exact .inr ⟨text, List.mem_cons_self, h⟩
    | cons next others =>
      rw [joined_cons_cons] at h
      rcases List.mem_append.mp h with h | h
      · rcases List.mem_append.mp h with h | h
        · exact .inr ⟨text, List.mem_cons_self, h⟩
        · exact .inl h
      · rcases ih h with hseparator | ⟨found, hfound, hc⟩
        · exact .inl hseparator
        · exact .inr ⟨found, List.mem_cons_of_mem _ hfound, hc⟩

theorem headings_append_newline (above below : List Char) :
    headings (above ++ '\n' :: below) = headings above ++ headings below := by
  have hsplit : (above ++ '\n' :: below).splitOn '\n' =
      above.splitOn '\n' ++ below.splitOn '\n' :=
    List.splitOnP_append_cons above below (by simp)
  rw [headings, hsplit, List.filterMap_append]
  rfl

theorem headings_nil : headings [] = [] := rfl

/-- A text without a line feed is one line. -/
theorem headings_of_not_mem {line : List Char} (h : '\n' ∉ line) :
    headings line = (Heading.ofLine? line).toList := by
  have hlines : (['\n'].intercalate [line]).splitOn '\n' = [line] :=
    List.splitOn_intercalate '\n' (by simpa using h) (by simp)
  have hsplit : line.splitOn '\n' = [line] := by simpa [List.intercalate] using hlines
  rw [headings, hsplit]
  cases hline : Heading.ofLine? line <;> simp [hline]

/-- Texts with something between them that parts lines have the headings of each text. -/
theorem headings_joined {separator : List Char}
    (hparts : ∀ above below, headings (above ++ separator ++ below) =
      headings above ++ headings below) (texts : List (List Char)) :
    headings (joined separator texts) = texts.flatMap headings := by
  induction texts with
  | nil => rfl
  | cons text rest ih =>
    cases rest with
    | nil => simp [joined]
    | cons next others =>
      rw [joined_cons_cons, hparts, ih]
      rfl

/-- The headings of lines are those of each line. -/
theorem headings_writeAll (width : Nat) (level : Int) (lines : List Line) :
    headings (Line.writeAll width level lines) =
      lines.flatMap fun line => headings (line.write width level) := by
  have hparts : ∀ above below : List Char,
      headings (above ++ ['\n'] ++ below) = headings above ++ headings below := by
    intro above below
    rw [List.append_assoc]
    exact headings_append_newline above below
  rw [Line.writeAll, headings_joined hparts, List.flatMap_map]

namespace Heading

/-- A margin does not make a heading of what is none. -/
theorem ofLine?_margin (n : Nat) (content : List Char) :
    ofLine? (List.replicate n ' ' ++ content) =
      (ofLine? content).map fun heading => ⟨n + heading.margin, heading.content⟩ := by
  have hdrop : (List.replicate n ' ' ++ content).dropWhile (· = ' ') =
      content.dropWhile (· = ' ') :=
    List.dropWhile_append_of_pos (by simp +contextual [List.mem_replicate])
  have hlength : (content.dropWhile (· = ' ')).length ≤ content.length :=
    (List.dropWhile_suffix _).length_le
  rw [ofLine?, ofLine?, hdrop]
  split
  · simp only [Option.map_some, Option.some.injEq, Heading.mk.injEq, and_true]
    rw [List.length_append, List.length_replicate]
    omega
  · rfl

/-- What does not end in a brace is no heading. -/
theorem ofLine?_of_getLast? {content : List Char} (h : content.getLast? ≠ some '\x7b') :
    ofLine? content = none := by
  have hlast : (content.dropWhile (· = ' ')).getLast? ≠ some '\x7b' := by
    obtain ⟨front, hfront⟩ : content.dropWhile (· = ' ') <:+ content := List.dropWhile_suffix _
    intro hbrace
    rw [← hfront, List.getLast?_append_of_ne_nil] at h
    · exact h hbrace
    · intro hnil
      simp [hnil] at hbrace
  simp [ofLine?, isContent, hlast]

/-- A content that begins with neither a space nor a character of identifiers is no heading. -/
theorem ofLine?_of_head {c : Char} (rest : List Char) (hspace : c ≠ ' ')
    (hrest : Text.isIdentifierRest c = false) : ofLine? (c :: rest) = none := by
  simp [ofLine?, isContent, hrest, Text.isIdentifier, hspace]

/-- What stands in front of the rest of a line that begins with an identifier. -/
theorem scan_identifier {name rest : List Char} (hname : Text.isIdentifier name)
    (hrest : ∀ c, rest.head? = some c → Text.isIdentifierRest c = false) :
    (name ++ rest).dropWhile (· = ' ') = name ++ rest ∧
      (name ++ rest).takeWhile Text.isIdentifierRest = name ∧
      (name ++ rest).dropWhile Text.isIdentifierRest = rest := by
  obtain ⟨⟨c, hhead, hstart⟩, hall⟩ := Text.isIdentifier_iff.mp hname
  have hspace : c ≠ ' ' := by
    rintro rfl
    exact absurd hstart (by decide)
  have htake : rest.takeWhile Text.isIdentifierRest = [] := by
    cases rest with
    | nil => rfl
    | cons d rest => simp [hrest d rfl]
  have hdrop : rest.dropWhile Text.isIdentifierRest = rest := by
    cases rest with
    | nil => rfl
    | cons d rest => simp [hrest d rfl]
  refine ⟨?_, ?_, ?_⟩
  · cases name with
    | nil => simp at hhead
    | cons d name =>
      obtain rfl : d = c := by simpa using hhead
      simp [hspace]
  · rw [List.takeWhile_append_of_pos hall, htake, List.append_nil]
  · rw [List.dropWhile_append_of_pos hall, hdrop]

/-- A name that is given a value is no heading, however far its equals sign is moved. -/
theorem ofLine?_of_equals {name : List Char} (hname : Text.isIdentifier name) (n : Nat)
    (rest : List Char) : ofLine? (name ++ (List.replicate n ' ' ++ ' ' :: '=' :: rest)) = none := by
  have hblank : ∀ c, (List.replicate n ' ' ++ ' ' :: '=' :: rest).head? = some c →
      Text.isIdentifierRest c = false := by
    intro c hc
    have : c = ' ' := by
      cases n with
      | zero => simpa using hc.symm
      | succ n => simpa [List.replicate_succ] using hc.symm
    subst this
    decide
  obtain ⟨hmargin, htake, hdrop⟩ := scan_identifier hname hblank
  have hspaces : (List.replicate n ' ' ++ ' ' :: '=' :: rest).dropWhile (· = ' ') =
      '=' :: rest := by
    rw [List.dropWhile_append_of_pos (by simp +contextual [List.mem_replicate])]
    simp
  simp [ofLine?, isContent, hmargin, htake, hdrop, hspaces]

/-- The keyword of a block and its labels in quotes. -/
def header (keyword : String) (labels : List String) : List Char :=
  joined [' '] (keyword.toList :: labels.map fun label => Text.Quoted.quote label.toList)

/-- The line of a keyword and labels in quotes is a heading. -/
theorem ofLine?_header {keyword : String} (hkeyword : Text.isIdentifier keyword.toList)
    (labels : List String) :
    ofLine? (header keyword labels ++ [' ', '\x7b']) =
      some ⟨0, header keyword labels ++ [' ', '\x7b']⟩ := by
  -- behind the keyword comes a space, and then a quote or the brace
  obtain ⟨behind, hline, hnext⟩ : ∃ behind,
      header keyword labels ++ [' ', '\x7b'] = keyword.toList ++ ' ' :: behind ∧
        (behind.dropWhile (· = ' ')).head? ≠ some '=' := by
    cases labels with
    | nil => exact ⟨['\x7b'], by simp [header, joined], by simp⟩
    | cons label labels =>
      let quoted := (label :: labels).map fun label => Text.Quoted.quote label.toList
      refine ⟨joined [' '] quoted ++ [' ', '\x7b'], ?_, ?_⟩
      · simp [header, joined, quoted]
      · cases labels <;> simp [joined, quoted, Text.Quoted.quote]
  have hblank : ∀ c, (' ' :: behind).head? = some c → Text.isIdentifierRest c = false := by
    rintro c ⟨⟩
    decide
  obtain ⟨hmargin, htake, hdrop⟩ := scan_identifier hkeyword hblank
  have hlast : (keyword.toList ++ ' ' :: behind).getLast? = some '\x7b' := by
    rw [← hline]
    simp
  rw [hline]
  simp [ofLine?, isContent, hmargin, htake, hdrop, hkeyword, hlast, hnext]

end Heading

/-- Line feeds are escaped. -/
theorem Text.Quoted.newline_not_mem_escape (text : List Char) : '\n' ∉ Text.Quoted.escape text := by
  intro hmem
  exact not_isControl_of_mem_escape hmem (by decide)

/-! ### Lines that are no headings -/

/-- A content that is one line, and no heading. -/
def IsQuiet (content : List Char) : Prop := '\n' ∉ content ∧ Heading.ofLine? content = none

theorem isQuiet_of_getLast? {content : List Char} (hbreak : '\n' ∉ content)
    (h : content.getLast? ≠ some '\x7b') : IsQuiet content :=
  ⟨hbreak, Heading.ofLine?_of_getLast? h⟩

theorem isQuiet_brace : IsQuiet ['\x7b'] := by
  constructor
  · decide
  · rfl

/-- A line that is blank, or whose content is no heading. -/
def Line.IsQuiet : Line → Prop
  | .blank => True
  | .code _ content => Stanza.IsQuiet content

/-- Quiet lines have no headings, wherever they stand. -/
theorem Line.IsQuiet.headings_eq {line : Line} (h : line.IsQuiet) (width : Nat) (level : Int) :
    headings (line.write width level) = [] := by
  cases line with
  | blank => rfl
  | code depth content =>
    obtain ⟨hbreak, hnone⟩ := h
    rw [Line.write, indent, headings_of_not_mem, Heading.ofLine?_margin, hnone]
    · rfl
    · simp [List.mem_replicate, hbreak]

/-- The line that closes a block. -/
theorem Line.isQuiet_closing : (Line.code 0 ['\x7d']).IsQuiet :=
  isQuiet_of_getLast? (by decide) (by decide)

theorem Line.isQuiet_deepen {line : Line} : line.deepen.IsQuiet ↔ line.IsQuiet := by
  cases line <;> rfl

/-- A text over several lines in which a line break or a heading can only come from what it is put
behind: its head is a lone brace or does not end in one, and the lines below it are quiet. -/
structure Rendered.IsQuiet (r : Rendered) : Prop where
  unbroken : '\n' ∉ r.head
  last : r.head = ['\x7b'] ∨ r.head.getLast? ≠ some '\x7b'
  tail : ∀ line ∈ r.tail, line.IsQuiet

namespace Rendered

variable {r : Rendered}

theorem isQuiet_inline {text : List Char} (hbreak : '\n' ∉ text)
    (hlast : text.getLast? ≠ some '\x7b') : (inline text).IsQuiet where
  unbroken := hbreak
  last := .inr hlast
  tail := by simp [inline]

theorem IsQuiet.lines (h : r.IsQuiet) : ∀ line ∈ r.lines, line.IsQuiet := by
  intro line hline
  rcases List.mem_cons.mp hline with rfl | hline
  · rcases h.last with hbrace | hlast
    · rw [hbrace]
      exact isQuiet_brace
    · exact isQuiet_of_getLast? h.unbroken hlast
  · exact h.tail line hline

/-- What ends in a comma stays quiet. -/
theorem IsQuiet.close (h : r.IsQuiet) : (r.close [',']).IsQuiet := by
  have hcomma : ∀ content : List Char, '\n' ∉ content → Stanza.IsQuiet (content ++ [',']) := by
    intro content hbreak
    exact isQuiet_of_getLast? (by simpa using hbreak) (by simp)
  have hreverse : ∀ line ∈ r.tail.reverse, line.IsQuiet := by simpa using h.tail
  unfold Rendered.close
  split
  · constructor
    · simpa using h.unbroken
    · exact .inr (by simp)
    · exact h.tail
  · rename_i above htail
    rw [htail, List.forall_mem_cons] at hreverse
    refine ⟨h.unbroken, h.last, ?_⟩
    simp only [List.mem_reverse, List.forall_mem_cons]
    exact ⟨hcomma [] (by simp), hreverse.2⟩
  · rename_i depth content above htail
    rw [htail, List.forall_mem_cons] at hreverse
    refine ⟨h.unbroken, h.last, ?_⟩
    simp only [List.mem_reverse, List.forall_mem_cons]
    exact ⟨hcomma content hreverse.1.1, hreverse.2⟩

theorem isQuiet_itemLines {items : List Rendered} (h : ∀ item ∈ items, item.IsQuiet) :
    ∀ line ∈ itemLines items, line.IsQuiet := by
  induction items with
  | nil => simp [itemLines]
  | cons item rest ih =>
    have hitem := h item List.mem_cons_self
    cases rest with
    | nil => exact hitem.lines
    | cons next others =>
      intro line hline
      rcases List.mem_append.mp hline with hline | hline
      · exact hitem.close.lines line hline
      · exact ih (fun item hmem => h item (List.mem_cons_of_mem _ hmem)) line hline

/-- Lines a level further in between two brackets. -/
theorem isQuiet_enclosed {opener closer : Char} {lines : List Line} (hopener : opener ≠ '\n')
    (hcloser : closer ≠ '\n' ∧ closer ≠ '\x7b') (h : ∀ line ∈ lines, line.IsQuiet) :
    (⟨[opener], lines.map Line.deepen ++ [.code 0 [closer]]⟩ : Rendered).IsQuiet where
  unbroken := by simpa using hopener.symm
  last := by
    by_cases hbrace : opener = '\x7b'
    · exact .inl (by rw [hbrace])
    · exact .inr (by simpa using hbrace)
  tail := by
    intro line hline
    rcases List.mem_append.mp hline with hline | hline
    · obtain ⟨inner, hinner, rfl⟩ := List.mem_map.mp hline
      exact Line.isQuiet_deepen.mpr (h inner hinner)
    · obtain rfl := List.mem_singleton.mp hline
      exact isQuiet_of_getLast? (by simpa using hcloser.1.symm) (by simpa using hcloser.2)

/-- A list of quiet items is quiet. -/
theorem isQuiet_ofItems {items : List Rendered} (h : ∀ item ∈ items, item.IsQuiet)
    (isOneLine : Bool) : (ofItems isOneLine items).IsQuiet := by
  unfold ofItems
  split
  · exact isQuiet_inline (by decide) (by decide)
  · split
    · have hinside : '\n' ∉ joined [',', ' '] (items.map Rendered.head) := by
        intro hmem
        rcases mem_joined hmem with hmem | ⟨head, hhead, hmem⟩
        · simp at hmem
        · obtain ⟨item, hitem, rfl⟩ := List.mem_map.mp hhead
          exact (h item hitem).unbroken hmem
      exact isQuiet_inline (by simpa using hinside) (by simp [List.getLast?_cons])
    · exact isQuiet_enclosed (by decide) (by decide) (isQuiet_itemLines h)

end Rendered

/-- The lines of an assignment to a name, or to a text in quotes, are no headings. -/
theorem Assignment.isQuiet_render {a : Assignment}
    (hkey : Text.isIdentifier a.key ∨ ∃ s, a.key = Text.Quoted.quote s) (h : a.value.IsQuiet)
    (width : Nat) : ∀ line ∈ (a.render width).lines, line.IsQuiet := by
  have hbreak : '\n' ∉ Assignment.pad width a.key ++ [' ', '=', ' '] ++ a.value.head := by
    rcases hkey with hname | ⟨s, hs⟩
    · have hkey : '\n' ∉ a.key := by
        intro hmem
        exact absurd ((Text.isIdentifier_iff.mp hname).2 _ hmem) (by decide)
      simp [Assignment.pad, hkey, List.mem_replicate, h.unbroken]
    · simp [Assignment.pad, hs, Text.Quoted.quote, Text.Quoted.newline_not_mem_escape,
        List.mem_replicate, h.unbroken]
  intro line hline
  rcases List.mem_cons.mp hline with rfl | hline
  · refine ⟨hbreak, ?_⟩
    show Heading.ofLine? (Assignment.pad width a.key ++ [' ', '=', ' '] ++ a.value.head) = none
    rcases hkey with hname | ⟨s, hs⟩
    · rw [Assignment.pad, List.append_assoc, List.append_assoc]
      exact Heading.ofLine?_of_equals hname _ _
    · rw [Assignment.pad, hs]
      exact Heading.ofLine?_of_head _ (by decide) (by decide)
  · exact h.tail line hline

/-- Assignments stay quiet when their equals signs line up. -/
theorem Assignment.isQuiet_renderAll {assignments : List Assignment} (style : Style)
    (h : ∀ a ∈ assignments,
      (Text.isIdentifier a.key ∨ ∃ s, a.key = Text.Quoted.quote s) ∧ a.value.IsQuiet) :
    ∀ line ∈ (Assignment.renderAll style assignments).flatMap Rendered.lines, line.IsQuiet := by
  have hrendered := Assignment.forall₂_renderAll style assignments
  generalize Assignment.renderAll style assignments = rendered at hrendered ⊢
  induction hrendered with
  | nil => simp
  | @cons a r _ _ hr _ ih =>
    obtain ⟨n, rfl⟩ := hr
    obtain ⟨⟨hkey, hvalue⟩, hrest⟩ := List.forall_mem_cons.mp h
    rw [List.flatMap_cons, List.forall_mem_append]
    exact ⟨isQuiet_render hkey hvalue n, ih hrest⟩

/-! ### Values -/

/-- A leaf without a raw expression whose references have rows of identifiers for names. -/
def Value.HasDottedNames : Value → Prop
  | .reference (.text name) => Text.isDotted name.toList
  | .raw _ => False
  | .template segments =>
      ∀ name, .reference (.text name) ∈ segments → Text.isDotted name.toList
  | _ => True

namespace Rendered

theorem isQuiet_word {word : List Char} (h : ∀ c ∈ word, Text.isWordChar c) :
    (inline word).IsQuiet := by
  refine isQuiet_inline (fun hmem => ?_) (fun hlast => ?_)
  · exact absurd (h _ hmem) (by decide)
  · exact absurd (h _ (List.mem_of_getLast? hlast)) (by decide)

theorem isQuiet_quoted {inside : List Char} (h : '\n' ∉ inside) :
    (inline ('"' :: inside ++ ['"'])).IsQuiet :=
  isQuiet_inline (by simpa using h) (by simp [List.getLast?_cons])

end Rendered

theorem newline_not_mem_referenceChars {name : List Char} (h : '\n' ∉ name) :
    '\n' ∉ referenceChars name := by
  have hvar : '\n' ∉ "var.".toList := by decide
  rw [referenceChars]
  split
  · exact h
  · simp only [List.mem_append, hvar, h, or_self, not_false_iff]

/-- Between the quotes of a template a line feed can only come from the name of a reference. -/
theorem Template.newline_not_mem_body {segments : List Value}
    (h : ∀ name, .reference (.text name) ∈ segments → '\n' ∉ name.toList) :
    '\n' ∉ body segments := by
  induction segments with
  | nil => simp [body]
  | cons segment rest ih =>
    have hrest : '\n' ∉ body rest := ih fun name hmem => h name (List.mem_cons_of_mem _ hmem)
    unfold body
    split
    · simp
    · rename_i s others heq
      obtain ⟨rfl, rfl⟩ := List.cons.inj heq
      have hescape := Text.Quoted.newline_not_mem_escape s.toList
      have hsegment : '\n' ∉ escapeSegment (beginsWithReference rest) s.toList := by
        rw [escapeSegment]
        split
        · rw [List.mem_append]
          rintro (hmem | hmem)
          · exact hescape (List.dropLast_subset _ hmem)
          · exact absurd hmem (by decide)
        · exact hescape
      simp [hsegment, hrest]
    · rename_i name others heq
      obtain ⟨rfl, rfl⟩ := List.cons.inj heq
      have hname := newline_not_mem_referenceChars (h name List.mem_cons_self)
      simp [hname, hrest]
    · rename_i heq
      obtain ⟨rfl, rfl⟩ := List.cons.inj heq
      exact hrest

namespace Value

theorem isQuiet_scalarChars {v : Value} (h : v.IsScalar) :
    (Rendered.inline v.scalarChars).IsQuiet := by
  unfold IsScalar at h
  split at h
  · exact Rendered.isQuiet_word (List.all_eq_true.mp (by decide))
  · rename_i b
    cases b with
    | false => exact Rendered.isQuiet_word (List.all_eq_true.mp (by decide))
    | true => exact Rendered.isQuiet_word (List.all_eq_true.mp (by decide))
  · rename_i n
    exact Rendered.isQuiet_word (all_isWordChar_integerText n)
  · rename_i s
    exact Rendered.isQuiet_quoted (Text.Quoted.newline_not_mem_escape s.toList)
  · rename_i x
    obtain ⟨digits, hdigits⟩ := Double.exists_numeral h
    rw [scalarChars, hdigits]
    exact Rendered.isQuiet_word (all_isWordChar_numeral hdigits)
  · exact absurd h id

/-- What is written for a leaf has no line feed in it and does not end in a brace. -/
theorem isQuiet_leafChars {v : Value} (hwritten : v.IsLeaf) (hnames : v.HasDottedNames) :
    (Rendered.inline v.leafChars).IsQuiet := by
  rcases isScalar_or_of_isLeaf hwritten with
    hscalar | ⟨s, rfl⟩ | ⟨s, rfl⟩ | ⟨segments, rfl⟩ | ⟨w, rfl, hscalar⟩
  · rw [(leaf_of_isScalar hscalar Double.written).2]
    exact isQuiet_scalarChars hscalar
  · exact Rendered.isQuiet_word (all_referenceChars hnames)
  · exact absurd hnames id
  · refine Rendered.isQuiet_quoted (Template.newline_not_mem_body fun name hname hfeed => ?_)
    exact absurd (Text.all_isWordChar_of_isDotted (hnames name hname) _ hfeed) (by decide)
  · exact isQuiet_scalarChars hscalar

/-- A key is written as an identifier or in quotes. -/
theorem isName_keyChars {key : Value} (h : key.IsName) :
    Text.isIdentifier key.keyChars ∨ ∃ s, key.keyChars = Text.Quoted.quote s := by
  unfold IsName at h
  split at h
  · rename_i s
    rw [keyChars]
    split
    · exact .inl ‹_›
    · exact .inr ⟨s.toList, rfl⟩
  · exact absurd h id

/-- An object of quiet assignments is quiet. -/
theorem isQuiet_object {assignments : List Assignment} (style : Style)
    (h : ∀ a ∈ assignments,
      (Text.isIdentifier a.key ∨ ∃ s, a.key = Text.Quoted.quote s) ∧ a.value.IsQuiet) :
    (Rendered.ofAssignments style assignments).IsQuiet := by
  unfold Rendered.ofAssignments
  split
  · exact Rendered.isQuiet_inline (by decide) (by decide)
  · exact Rendered.isQuiet_enclosed (by decide) (by decide)
      (Assignment.isQuiet_renderAll style h)

mutual

/-- A value that can be written has no headings in it. -/
theorem isQuiet_layout {v : Value} (style : Style) (hwritten : v.IsWritten)
    (hnames : ∀ leaf ∈ v.leaves, leaf.HasDottedNames) : (v.shape.layout style).IsQuiet := by
  match v with
  | .list items | .tuple items | .sequence items =>
    exact Rendered.isQuiet_ofItems (isQuiet_layoutItems style hwritten hnames) _
  | .object entries =>
    exact isQuiet_object style (isQuiet_layoutEntries style hwritten.1 hwritten.2 hnames)
  | .mapping entries =>
    rw [IsWritten] at hwritten
    rw [leaves] at hnames
    rw [shape]
    cases hmarker : Marker.ofEntries? entries with
    | some found =>
      obtain ⟨marker, payload⟩ := found
      simp only [hmarker, List.mem_singleton, forall_eq] at hwritten hnames ⊢
      exact isQuiet_leafChars hwritten hnames
    | none =>
      simp only [hmarker] at hwritten hnames ⊢
      exact isQuiet_object style (isQuiet_layoutEntries style hwritten.1 hwritten.2 hnames)
  | .null | .bool _ | .int _ | .float _ | .text _ | .bytes _ | .buffer _ | .set _ | .date _
  | .moment _ | .foreign _ | .reference _ | .raw _ | .template _ | .literal _ | .block .. =>
    exact isQuiet_leafChars hwritten (hnames _ List.mem_cons_self)

theorem isQuiet_layoutItems {items : List Value} (style : Style) (hwritten : AreWritten items)
    (hnames : ∀ leaf ∈ itemLeaves items, leaf.HasDottedNames) :
    ∀ r ∈ Shape.layoutItems style (itemShapes items), r.IsQuiet := by
  match items with
  | [] => simp [itemShapes, Shape.layoutItems]
  | item :: rest =>
    rw [itemLeaves, List.forall_mem_append] at hnames
    rw [itemShapes, Shape.layoutItems, List.forall_mem_cons]
    exact ⟨isQuiet_layout style hwritten.1 hnames.1,
      isQuiet_layoutItems style hwritten.2 hnames.2⟩

theorem isQuiet_layoutEntries {entries : Entries} (style : Style)
    (hkeys : ∀ entry ∈ entries, entry.1.IsName) (hwritten : AreEntriesWritten entries)
    (hnames : ∀ leaf ∈ entryLeaves entries, leaf.HasDottedNames) :
    ∀ a ∈ Shape.layoutEntries style (entryShapes entries),
      (Text.isIdentifier a.key ∨ ∃ s, a.key = Text.Quoted.quote s) ∧ a.value.IsQuiet := by
  match entries with
  | [] => simp [entryShapes, Shape.layoutEntries]
  | (key, value) :: rest =>
    rw [entryLeaves, List.forall_mem_append] at hnames
    obtain ⟨hkey, hkeys⟩ := List.forall_mem_cons.mp hkeys
    rw [entryShapes, Shape.layoutEntries, List.forall_mem_cons]
    exact ⟨⟨isName_keyChars hkey, isQuiet_layout style hwritten.1 hnames.1⟩,
      isQuiet_layoutEntries style hkeys hwritten.2 hnames.2⟩

end

end Value

end Stanza
