import Stanza.Proofs.Expression.Scan
import Stanza.Proofs.Layout.Outline
import Stanza.Proofs.Number.Written

/-!
Generated documents balance.

What is written for a leaf is neutral when the leaf is sound: a raw expression is well formed by
itself, the names of references hold no delimiters, and templates are canonical
(`neutral_leafChars`). Lists, objects and blocks put brackets around such texts, so the lexemes of a
document are `Balanced`, and a text laid out from balanced lexemes is neutral
(`Balanced.neutral_of_laid`). Hence the check of expressions accepts every document that is
generated (`Document.check_compile`).
-/

namespace Stanza

open Expression

/-- What makes the text of a leaf neutral. A template that is made by a marker or by joining parts
is canonical (see `isSound_templateNode`); one that is given as a node has to be. -/
def Value.IsSound : Value → Prop
  | .reference (.text name) => ∀ c ∈ name.toList, isDelimiter c = false
  | .raw (.text s) => rejection? s = none
  | .template segments =>
      Template.Canonical segments ∧ ∀ v ∈ segments,
        Template.IsSegment (fun name => ∀ c ∈ name.toList, isDelimiter c = false) v
  | _ => True

/-- What a template marker stands for is canonical, so all that matters of it are its names. -/
theorem Value.isSound_templateNode (payload : Value) :
    (Marker.template.node payload).IsSound ↔ ∀ v ∈ Template.merge payload.segments,
      Template.IsSegment (fun name => ∀ c ∈ name.toList, isDelimiter c = false) v := by
  simp only [Marker.node, IsSound, Template.canonical_merge, true_and]

/-! ### Leaves are neutral -/

theorem isWellFormed_of_rejection? {s : String} (h : rejection? s = none) :
    isWellFormed s.toList := by
  unfold rejection? at h
  unfold isWellFormed isBalanced
  split at h
  · simp at h
  · split at h <;> simp_all

theorem isDelimiter_of_isWordChar {c : Char} (h : Text.isWordChar c) : isDelimiter c = false := by
  have hdelimiters :
      ['"', '(', '[', '\x7b', ')', ']', '\x7d'].all fun d => !Text.isWordChar d := by
    decide
  by_cases hmem : c ∈ ['"', '(', '[', '\x7b', ')', ']', '\x7d']
  · have hword := List.all_eq_true.mp hdelimiters c hmem
    simp [h] at hword
  · unfold isDelimiter Delimiter.ofOpener? Delimiter.ofCloser?
    split <;> split <;> simp_all

theorem neutral_of_word {word : List Char} (h : ∀ c ∈ word, Text.isWordChar c) : Neutral word :=
  neutral_of_plain fun c hc => isDelimiter_of_isWordChar (h c hc)

theorem neutral_of_isIdentifier {name : List Char} (h : Text.isIdentifier name) : Neutral name :=
  neutral_of_word (Text.all_isWordChar_of_isIdentifier h)

theorem neutral_referenceChars {name : List Char} (h : ∀ c ∈ name, isDelimiter c = false) :
    Neutral (referenceChars name) := by
  have hvar : Neutral "var.".toList := neutral_of_word (List.all_eq_true.mp (by decide))
  unfold referenceChars
  split
  · exact neutral_of_plain h
  · exact hvar.append (neutral_of_plain h)

theorem neutral_scalarChars (v : Value) : Neutral v.scalarChars := by
  unfold Value.scalarChars
  split
  · exact neutral_of_word (List.all_eq_true.mp (by decide))
  · split
    · exact neutral_of_word (List.all_eq_true.mp (by decide))
    · exact neutral_of_word (List.all_eq_true.mp (by decide))
  · exact neutral_of_word (all_isWordChar_integerText _)
  · rename_i x
    cases hdigits : x.numeral? with
    | none => exact neutral_nil
    | some digits => exact neutral_of_word (all_isWordChar_numeral hdigits)
  · exact neutral_quote _
  · exact neutral_nil

theorem neutral_keyChars (key : Value) : Neutral key.keyChars := by
  unfold Value.keyChars
  split
  · split
    · exact neutral_of_isIdentifier ‹_›
    · exact neutral_quote _
  · exact neutral_nil

namespace Template

variable {stack : List Delimiter}

/-- The text of a segment in front of a splice is passed over. A dollar at its end makes a splice of
its own; where that splice doubles another dollar, the string ends inside it and begins anew. -/
theorem scan_escapeSegment (text : List Char) (hstack : InCode stack) (offset : Nat)
    (rest : List Char) :
    scan offset (.string :: stack) (escapeSegment true text ++ '$' :: '\x7b' :: rest) =
      scan (offset + (escapeSegment true text).length) (.string :: stack)
        ('$' :: '\x7b' :: rest) := by
  have hlonely : lonelyDollar = '$' :: '\x7b' :: Text.Quoted.quote ['$'] ++ ['\x7d'] := rfl
  by_cases hdollar : text.getLast? = some '$'
  · obtain ⟨front, rfl⟩ := List.getLast?_eq_some_iff.mp hdollar
    rw [escapeSegment_dollar, List.append_assoc, List.length_append, ← Nat.add_assoc]
    by_cases hdouble : front.getLast? = some '$'
    · obtain ⟨front, rfl⟩ := List.getLast?_eq_some_iff.mp hdouble
      have hapart : Text.Quoted.Apart front ('$' :: (lonelyDollar ++ '$' :: '\x7b' :: rest)) :=
        fun _ _ _ => ⟨by simp, by simp [lonelyDollar_eq]⟩
      have hskip : scan (offset + (Text.Quoted.escape front).length) (.string :: stack)
          ('$' :: (lonelyDollar ++ '$' :: '\x7b' :: rest)) =
            scan (offset + (Text.Quoted.escape front).length + 3) (.string :: stack)
              ('"' :: '$' :: '"' :: '\x7d' :: '$' :: '\x7b' :: rest) := by
        simp [lonelyDollar_eq, scan]
      have hbrace : Text.Quoted.Apart ['\x7d'] ('$' :: '\x7b' :: rest) :=
        Text.Quoted.apart_splice (by decide) rest
      rw [escape_dollar, List.append_assoc, List.singleton_append, scan_escape_append hapart, hskip,
        scan_endQuote, scan_plain (by decide) hstack, scan_quote hstack,
        scan_char (by decide) (by decide) hbrace]
      simp [lonelyDollar_eq, Nat.add_assoc]
    · rw [scan_escape_append (by simpa [lonelyDollar_eq] using Text.Quoted.apart_splice hdouble _)]
      have hsplice := scan_splice (neutral_quote ['$'])
        (offset + (Text.Quoted.escape front).length) stack ('$' :: '\x7b' :: rest)
      rw [hlonely]
      simpa using hsplice
  · rw [escapeSegment_of_not_dollar hdollar,
      scan_escape_append (Text.Quoted.apart_splice hdollar rest)]

/-- The text between the quotes of a template is passed over. -/
theorem scan_body {segments : List Value} (hcanonical : Canonical segments)
    (hsegments : ∀ v ∈ segments,
      IsSegment (fun name => ∀ c ∈ name.toList, isDelimiter c = false) v)
    (hstack : InCode stack) (offset : Nat) (rest : List Char) :
    scan offset (.string :: stack) (body segments ++ '"' :: rest) =
      scan (offset + (body segments).length) (.string :: stack) ('"' :: rest) := by
  induction segments, hsegments using isSegment_induction generalizing offset with
  | nil => rfl
  | text s others hothers ih =>
    obtain ⟨-, hbegins, hcanonical⟩ := hcanonical
    have ih := ih hcanonical
    rw [body, List.append_assoc]
    rcases eq_nil_or_begins hothers hbegins with rfl | ⟨hreference, tail, htail⟩
    · rw [show beginsWithReference [] = false from rfl, escapeSegment_false, body, List.nil_append,
        List.append_nil, scan_escape_append (Text.Quoted.apart_quote s.toList rest)]
    · rw [htail] at ih ⊢
      rw [hreference, List.cons_append, List.cons_append, scan_escapeSegment _ hstack,
        ← List.cons_append, ← List.cons_append, ih, List.length_append, Nat.add_assoc]
  | reference name others hname hothers ih =>
    have hsplice := scan_splice (neutral_referenceChars hname) offset stack
      (body others ++ '"' :: rest)
    rw [ih hcanonical] at hsplice
    simp only [body, List.cons_append, List.append_assoc, List.length_cons,
      List.length_append] at hsplice ⊢
    rw [hsplice]
    congr 1
    omega

end Template

/-- What is written for a sound leaf is neutral. -/
theorem neutral_leafChars {v : Value} (h : v.IsSound) : Neutral v.leafChars := by
  unfold Value.leafChars
  split
  · exact neutral_referenceChars h
  · have hwell := isWellFormed_of_rejection? h
    exact neutral_of_isBalanced (Bool.and_eq_true_iff.mp hwell).2
  · obtain ⟨hcanonical, hsegments⟩ := h
    intro offset stack rest hstack
    rw [List.cons_append, List.cons_append, scan_quote hstack, List.append_assoc,
      List.singleton_append, Template.scan_body hcanonical hsegments hstack, scan_endQuote]
    congr 1
    simp
    omega
  · exact neutral_scalarChars _
  · exact neutral_scalarChars _

/-! ### Lexemes that balance -/

/-- Lexemes whose brackets close in turn, and whose texts are neutral. -/
inductive Balanced : List Lexeme → Prop where
  | nil : Balanced []
  | text {chars : List Char} {rest : List Lexeme} :
      Neutral chars → Balanced rest → Balanced (.text chars :: rest)
  | mark {c : Char} {rest : List Lexeme} :
      isDelimiter c = false → Balanced rest → Balanced (.mark c :: rest)
  | append {a b : List Lexeme} : Balanced a → Balanced b → Balanced (a ++ b)
  | enclosed {opener closer : Char} {d : Delimiter} {inside : List Lexeme} :
      Delimiter.ofOpener? opener = some d → Delimiter.ofCloser? closer = some d →
      Balanced inside → Balanced (.mark opener :: inside ++ [.mark closer])

theorem neutral_of_laid_nil {text : List Char} (h : Laid [] text) : Neutral text := by
  refine neutral_of_plain fun c hc => ?_
  rcases h.blank_of_nil c hc with rfl | rfl <;> decide

/-- A text that is laid out from balanced lexemes is neutral. -/
theorem Balanced.neutral_of_laid {lexemes : List Lexeme} {text : List Char}
    (h : Balanced lexemes) (hlaid : Laid lexemes text) : Neutral text := by
  induction h generalizing text with
  | nil => exact neutral_of_laid_nil hlaid
  | text hchars _ ih =>
    obtain ⟨before, rest, rfl, hbefore, hrest⟩ := hlaid.of_cons
    exact (neutral_of_laid_nil hbefore).append (hchars.append (ih hrest))
  | mark hc _ ih =>
    obtain ⟨before, rest, rfl, hbefore, hrest⟩ := hlaid.of_cons
    have hmark : Neutral [_] := neutral_of_plain (List.forall_mem_singleton.mpr hc)
    exact (neutral_of_laid_nil hbefore).append (hmark.append (ih hrest))
  | append _ _ iha ihb =>
    obtain ⟨s, t, rfl, hs, ht⟩ := hlaid.of_append
    exact (iha hs).append (ihb ht)
  | enclosed hopener hcloser _ ih =>
    obtain ⟨before, rest, rfl, hbefore, hrest⟩ := hlaid.of_cons
    obtain ⟨inside, rest, rfl, hinside, hrest⟩ := Laid.of_append hrest
    obtain ⟨between, behind, rfl, hbetween, hbehind⟩ := hrest.of_cons
    have henclosed :=
      ((ih hinside).append (neutral_of_laid_nil hbetween)).enclosed hopener hcloser
    simpa [Lexeme.chars] using
      (neutral_of_laid_nil hbefore).append (henclosed.append (neutral_of_laid_nil hbehind))

/-! ### Documents balance -/

namespace Value

mutual

/-- The lexemes of a value with sound leaves balance. -/
theorem balanced_shape {v : Value} (h : ∀ leaf ∈ v.leaves, leaf.IsSound) :
    Balanced v.shape.lexemes := by
  match v with
  | .list items | .tuple items | .sequence items =>
    exact .enclosed (d := .square) rfl rfl (balanced_itemShapes h)
  | .object entries => exact .enclosed (d := .brace) rfl rfl (balanced_entryShapes h)
  | .mapping entries =>
    rw [leaves] at h
    rw [shape]
    cases hmarker : Marker.ofEntries? entries with
    | some found =>
      obtain ⟨marker, payload⟩ := found
      simp only [hmarker, List.mem_singleton, forall_eq] at h ⊢
      exact .text (neutral_leafChars h) .nil
    | none =>
      simp only [hmarker] at h ⊢
      exact .enclosed (d := .brace) rfl rfl (balanced_entryShapes h)
  | .null | .bool _ | .int _ | .float _ | .text _ | .bytes _ | .buffer _ | .set _ | .date _
  | .moment _ | .foreign _ | .reference _ | .raw _ | .template _ | .literal _ | .block .. =>
    exact .text (neutral_leafChars (h _ List.mem_cons_self)) .nil

theorem balanced_itemShapes {items : List Value} (h : ∀ leaf ∈ itemLeaves items, leaf.IsSound) :
    Balanced (Shape.itemLexemes (itemShapes items)) := by
  match items with
  | [] => exact .nil
  | [item] => exact balanced_shape fun leaf hleaf => h leaf (by simpa [itemLeaves] using hleaf)
  | item :: next :: rest =>
    rw [itemLeaves] at h
    obtain ⟨hitem, hrest⟩ := List.forall_mem_append.mp h
    exact (balanced_shape hitem).append (.mark (by decide) (balanced_itemShapes hrest))

theorem balanced_entryShapes {entries : Entries} (h : ∀ leaf ∈ entryLeaves entries, leaf.IsSound) :
    Balanced (Shape.entryLexemes (entryShapes entries)) := by
  match entries with
  | [] => exact .nil
  | (key, value) :: rest =>
    rw [entryLeaves] at h
    obtain ⟨hvalue, hrest⟩ := List.forall_mem_append.mp h
    exact .text (neutral_keyChars key)
      (.mark (by decide) ((balanced_shape hvalue).append (balanced_entryShapes hrest)))

end

end Value

namespace Block

theorem balanced_labels (labels : List (List Char)) :
    Balanced ((labels.map Text.Quoted.quote).map .text) := by
  induction labels with
  | nil => exact .nil
  | cons label rest ih => exact .text (neutral_quote label) ih

theorem balanced_attributeShapes {attributes : Value}
    (h : ∀ leaf ∈ attributeLeaves attributes, leaf.IsSound) :
    Balanced (Shape.entryLexemes (attributeShapes attributes)) := by
  cases attributes
  case mapping entries => exact Value.balanced_entryShapes h
  all_goals exact .nil

mutual

/-- The lexemes of a block with sound leaves balance. -/
theorem balanced_outline {node : Value} (hwritten : IsWritten node)
    (h : ∀ leaf ∈ leaves node, leaf.IsSound) : Balanced (outline node).lexemes := by
  obtain ⟨path, attributes, children, rfl⟩ := hwritten.exists_eq_block
  rw [leaves] at h
  obtain ⟨hkeyword, -, hchildren⟩ := hwritten
  obtain ⟨hattributes, hleaves⟩ := List.forall_mem_append.mp h
  have hbody := (balanced_attributeShapes hattributes).append
    (balanced_childOutlines hchildren hleaves)
  simpa [outline, Outline.lexemes] using (Balanced.text (neutral_of_isIdentifier hkeyword)
    (balanced_labels (pathTexts path).tail)).append (hbody.enclosed (d := .brace) rfl rfl)
termination_by sizeOf node

theorem balanced_childOutlines {children : Value}
    (hwritten : AreChildrenWritten children)
    (h : ∀ leaf ∈ childLeaves children, leaf.IsSound) :
    Balanced (Outline.rowLexemes (childOutlines children)) := by
  match children with
  | .list items | .tuple items | .set items => exact balanced_itemOutlines hwritten h
  | .null | .bool _ | .int _ | .float _ | .text _ | .bytes _ | .buffer _ | .mapping _ | .date _
  | .moment _ | .foreign _ | .reference _ | .raw _ | .template _ | .literal _ | .sequence _
  | .object _ | .block .. => exact .nil
termination_by sizeOf children

theorem balanced_itemOutlines {items : List Value} (hwritten : AreWritten items)
    (h : ∀ leaf ∈ itemLeaves items, leaf.IsSound) :
    Balanced (Outline.rowLexemes (itemOutlines items)) := by
  match items with
  | [] => exact .nil
  | item :: rest =>
    rw [itemLeaves] at h
    obtain ⟨hitem, hrest⟩ := List.forall_mem_append.mp h
    exact (balanced_outline hwritten.1 hitem).append (balanced_itemOutlines hwritten.2 hrest)
termination_by sizeOf items

end

end Block

theorem isBlank_of_isIdentifierStart {c : Char} (h : Text.isIdentifierStart c) :
    Text.isBlank c = false := by
  have hrange := Text.toNat_of_isIdentifierStart h
  simp [Text.isBlank, Text.isWhite]
  omega

namespace Document

/-- What compiles to something is not blank: it begins with the keyword of its first block. -/
theorem not_allBlank_of_laid {nodes : List Value} {text : List Char}
    (hwritten : Block.AreWritten nodes)
    (hlaid : Laid (Outline.rowLexemes (Block.itemOutlines nodes)) text) (hnodes : nodes ≠ []) :
    Text.allBlank text = false := by
  obtain ⟨node, rest, rfl⟩ := List.exists_cons_of_ne_nil hnodes
  obtain ⟨path, attributes, children, rfl⟩ := hwritten.1.exists_eq_block
  obtain ⟨⟨hkeyword, -, -⟩, -⟩ := hwritten
  obtain ⟨c, hc, hstart⟩ := (Text.isIdentifier_iff.mp hkeyword).1
  obtain ⟨before, behind, rfl, -, -⟩ := Laid.of_cons hlaid
  have hmem : c ∈ before ++ ((Block.pathTexts path).headD [] ++ behind) :=
    List.mem_append_right _ (List.mem_append_left _ (List.mem_of_mem_head? hc))
  refine List.all_eq_false.mpr ⟨c, hmem, ?_⟩
  simp [isBlank_of_isIdentifierStart hstart]

/-- **Generated documents balance.** A document that is not empty is accepted by the check of
expressions, if all raw expressions in it are, if the names of its references hold no quotes and no
brackets, and if the templates that are given as nodes are canonical. -/
theorem check_compile {format : Format} {nodes : List Value} {text : List Char}
    (compiled : compile format nodes = .ok text) (nonempty : text ≠ [])
    (sound : ∀ leaf ∈ Block.itemLeaves nodes, leaf.IsSound) (path : Path) :
    check (.text (String.ofList text)) path = .ok (String.ofList text) := by
  obtain ⟨hwritten, hlaid⟩ := laid_compile compiled
  have hneutral := (Block.balanced_itemOutlines hwritten sound).neutral_of_laid hlaid
  have hscan : scan 0 [] text = .ok [] := by simpa [scan] using hneutral 0 [] [] inCode_nil
  have hnodes : nodes ≠ [] := by
    rintro rfl
    obtain rfl : [] = text := by
      simpa [compile, blockTexts, assemble, bind, Except.bind, pure, Except.pure] using compiled
    exact nonempty rfl
  have hblank := not_allBlank_of_laid hwritten hlaid hnodes
  simp [check, checkText, rejection?, imbalance?, hblank, hscan]

/-- A block in a block, with a raw expression and with a template in which two dollars meet a
reference. -/
def nestedBlocks : List Value :=
  [.block (.list [.text "a"])
    (.mapping
      [(.text "x",
          .mapping [(.text "$template", .list [.text "$$", .mapping [(.text "$var", .text "n")]])]),
        (.text "y", .list [.mapping [(.text "$func", .text "f(1)")], .int 3])])
    (.list [.block (.list [.text "b", .text "\x7b"]) (.mapping []) (.list [])])]

/-- The document of nested blocks is accepted. -/
theorem check_compile_nestedBlocks :
    (∀ leaf ∈ Block.itemLeaves nestedBlocks, leaf.IsSound) ∧
      ∃ text, compile {} nestedBlocks = .ok text ∧ text ≠ [] ∧
        check (.text (String.ofList text)) [] = .ok (String.ofList text) := by
  have hsound : ∀ leaf ∈ Block.itemLeaves nestedBlocks, leaf.IsSound := by
    change ∀ leaf ∈
      [Value.template [.text "$$", .reference (.text "n")], .raw (.text "f(1)"), .int 3],
      leaf.IsSound
    simp only [List.mem_cons, List.not_mem_nil, or_false]
    rintro leaf (rfl | rfl | rfl)
    · refine ⟨⟨by decide, rfl, trivial⟩, ?_⟩
      simp only [List.mem_cons, List.not_mem_nil, or_false]
      rintro v (rfl | rfl)
      · trivial
      · have hname : "n".toList.all Text.isWordChar := by decide
        exact fun c hc => isDelimiter_of_isWordChar (List.all_eq_true.mp hname c hc)
    · exact rfl
    · trivial
  have hcompiled : compile {} nestedBlocks =
      .ok ("a \x7b\n  x = \"$$\x7b\"$\"\x7d$\x7bvar.n\x7d\"\n".toList ++
        "  y = [f(1), 3]\n\n  b \"\x7b\" \x7b\n  \x7d\n\x7d\n".toList) := rfl
  exact ⟨hsound, _, hcompiled, by simp, check_compile hcompiled (by simp) hsound []⟩

end Document

end Stanza
