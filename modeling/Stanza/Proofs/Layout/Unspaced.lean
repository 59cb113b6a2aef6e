import Stanza.Proofs.Expression.Balance
import Stanza.Proofs.Fault.Alike

/-!
Texts without their layout.

`Expression.unspaced` deletes the spaces and line feeds of a text that stand outside strings. Where
a string begins and ends is told by the scanner of expressions: it reads what stands before a
character and sees whether a string is open there (`Expression.endsInString`).

What comes behind a text decides nothing about its prefixes (`Expression.exists_scan_of_append`),
and neither do delimiters that are open before it (`Expression.scan_above`). So a neutral text loses
the same blanks wherever it stands (`Expression.Outside.unspacedFrom_of_neutral`), and a text that
is laid out from balanced lexemes keeps nothing of its layout (`Balanced.unspacedFrom_of_laid`).
Since every format lays a document out from the same lexemes, formats only decide about layout
(`Document.unspaced_compile`).
-/

namespace Stanza

namespace Expression

/-! ### Where strings are open -/

/-- Whether a string is open at the end of a text. -/
def endsInString (text : List Char) : Bool :=
  match scan 0 [] text with
  | .ok (.string :: _) => true
  | _ => false

/-- A text that comes behind another, without the spaces and line feeds outside strings. -/
def unspacedFrom (before : List Char) : List Char → List Char
  | [] => []
  | c :: rest =>
      if (c = ' ' ∨ c = '\n') ∧ !endsInString before then unspacedFrom (before ++ [c]) rest
      else c :: unspacedFrom (before ++ [c]) rest

/-- A text without the spaces and line feeds outside strings. -/
def unspaced (text : List Char) : List Char := unspacedFrom [] text

theorem unspacedFrom_append (before text rest : List Char) :
    unspacedFrom before (text ++ rest) =
      unspacedFrom before text ++ unspacedFrom (before ++ text) rest := by
  induction text generalizing before with
  | nil => simp [unspacedFrom]
  | cons c text ih =>
    rw [List.cons_append, unspacedFrom, unspacedFrom, ih, List.append_assoc, List.singleton_append]
    split <;> simp

/-- What is deleted of a text depends on where strings are open inside it, and on nothing else. -/
theorem unspacedFrom_congr {before other text : List Char}
    (h : ∀ p rest, text = p ++ rest → endsInString (before ++ p) = endsInString (other ++ p)) :
    unspacedFrom before text = unspacedFrom other text := by
  induction text generalizing before other with
  | nil => rfl
  | cons c text ih =>
    have hhead : endsInString before = endsInString other := by
      simpa using h [] (c :: text) rfl
    have htail : unspacedFrom (before ++ [c]) text = unspacedFrom (other ++ [c]) text := by
      refine ih fun p rest hp => ?_
      simpa using h (c :: p) rest (by rw [hp, List.cons_append])
    rw [unspacedFrom, unspacedFrom, hhead, htail]

/-! ### Prefixes -/

/-- Delimiters that are open already stay open below those of a text. -/
theorem scan_above {offset : Nat} {stack final below : List Delimiter} {text : List Char}
    (h : scan offset stack text = .ok final) (hbelow : InCode below) (start : Nat) :
    scan start (stack ++ below) text = .ok (final ++ below) := by
  fun_induction scan offset stack text generalizing start
  case case1 | case2 =>
    obtain rfl := Except.ok.inj h
    simp [scan]
  case case3 ih | case4 ih | case5 ih | case6 ih | case7 ih =>
    simp only [List.cons_append, scan] at ih ⊢
    exact ih h _
  case case8 ih =>
    rw [List.cons_append, scan_endQuote]
    exact ih h _
  case case9 hlast hslash hdollars hpercents hdollar hpercent hquote ih =>
    rw [List.cons_append, scan, if_neg hquote]
    · exact ih h _
    · exact hlast
    · exact hslash
    · exact hdollars
    · exact hpercents
    · exact hdollar
    · exact hpercent
  case case10 hcode _ _ _ _ _ _ ih =>
    rw [scan_quote ((inCode_of_forall_ne hcode).append hbelow)]
    exact ih h _
  case case11 _ _ _ _ _ _ hcode _ opened hopener ih =>
    rw [scan_opener hopener ((inCode_of_forall_ne hcode).append hbelow)]
    exact ih h _
  case case12 c text _ _ _ _ _ _ hcode hquote hcloser hopener ih =>
    have hplain : isDelimiter c = false := by simp [isDelimiter, hquote, hcloser, hopener]
    rw [scan_plain hplain ((inCode_of_forall_ne hcode).append hbelow)]
    exact ih h _
  case case13 ih =>
    rw [List.cons_append, scan_closer ‹_›]
    exact ih h _
  case case14 | case15 => exact absurd h (by simp)

/-- A string goes on up to the end of one more character, or ends with it. -/
theorem exists_scan_char (offset : Nat) (stack : List Delimiter) (c : Char) :
    ∃ inner, scan offset (.string :: stack) [c] = .ok inner := by
  by_cases hquote : c = '"'
  · exact ⟨stack, by rw [hquote, scan_endQuote, scan]⟩
  by_cases hslash : c = '\\'
  · exact ⟨.string :: stack, by rw [hslash, scan]⟩
  · have hapart : Text.Quoted.Apart [c] [] := fun _ _ _ => by simp
    exact ⟨.string :: stack, by rw [scan_char hquote hslash hapart, scan]⟩

/-- A text that is scanned up to its end is scanned up to the end of every prefix. -/
theorem exists_scan_of_append {offset : Nat} {stack final : List Delimiter} {text rest : List Char}
    (h : scan offset stack (text ++ rest) = .ok final) :
    ∃ inner, scan offset stack text = .ok inner := by
  fun_induction scan offset stack text
  case case1 | case2 => exact ⟨_, rfl⟩
  case case3 ih | case4 ih | case5 ih | case6 ih | case7 ih =>
    simp only [List.cons_append, scan] at h
    exact ih h
  case case8 ih =>
    rw [List.cons_append, scan_endQuote] at h
    exact ih h
  case case9 stack c text hlast hslash hdollars hpercents hdollar hpercent hquote ih =>
    -- what a sign starts is decided by two more characters, so near the end by what is cut off
    cases text with
    | nil => exact ⟨_, rfl⟩
    | cons x text =>
      cases text with
      | nil => exact exists_scan_char _ _ x
      | cons y more =>
        have hslash : c ≠ '\\' := fun hc => hslash x (y :: more) hc rfl
        have hapart : Text.Quoted.Apart [c] (x :: y :: more ++ rest) := by
          intro e he hsign
          obtain rfl : c = e := by simpa using he
          rcases Text.Quoted.isSign_iff.mp hsign with rfl | rfl <;> simp_all
        rw [List.cons_append, scan_char hquote hslash hapart] at h
        exact ih h
  case case10 hcode _ _ _ _ _ _ ih =>
    rw [List.cons_append, scan_quote (inCode_of_forall_ne hcode)] at h
    exact ih h
  case case11 _ _ _ _ _ _ hcode _ opened hopener ih =>
    rw [List.cons_append, scan_opener hopener (inCode_of_forall_ne hcode)] at h
    exact ih h
  case case12 c text _ _ _ _ _ _ hcode hquote hcloser hopener ih =>
    have hplain : isDelimiter c = false := by simp [isDelimiter, hquote, hcloser, hopener]
    rw [List.cons_append, scan_plain hplain (inCode_of_forall_ne hcode)] at h
    exact ih h
  case case13 ih =>
    rw [List.cons_append, scan_closer ‹_›] at h
    exact ih h
  case case14 hquote closed hcloser hopener top below hne _ _ _ _ _ _ hcode =>
    rw [List.cons_append, scan_code _ _ _ _ (inCode_of_forall_ne hcode), if_neg hquote, hopener,
      hcloser] at h
    simp [hne] at h
  case case15 hquote closed hcloser hopener _ _ _ _ _ _ _ =>
    rw [List.cons_append, scan_code _ _ _ _ inCode_nil, if_neg hquote, hopener, hcloser] at h
    simp at h

/-! ### Outside strings -/

/-- At the end of a text, these delimiters are open, and no string is. -/
structure Outside (before : List Char) (stack : List Delimiter) : Prop where
  scanned : scan 0 [] before = .ok stack
  inCode : InCode stack

theorem outside_nil : Outside [] [] := ⟨rfl, inCode_nil⟩

theorem Neutral.scan_eq {text : List Char} (h : Neutral text) {offset : Nat}
    {stack : List Delimiter} (hstack : InCode stack) : scan offset stack text = .ok stack := by
  simpa [scan] using h offset stack [] hstack

namespace Outside

variable {before text : List Char} {stack : List Delimiter} {d : Delimiter} {c : Char}

/-- What comes behind is scanned with the delimiters that are open. -/
theorem scan_append (h : Outside before stack) (text : List Char) :
    scan 0 [] (before ++ text) = scan before.length stack text := by
  simpa using Expression.scan_append h.scanned h.inCode inCode_nil 0 text

theorem endsInString_eq_false (h : Outside before stack) : endsInString before = false := by
  have hcode := h.inCode
  unfold endsInString
  rw [h.scanned]
  split
  · rename_i heq
    obtain rfl := Except.ok.inj heq
    simp [InCode] at hcode
  · rfl

theorem neutral (h : Outside before stack) (htext : Neutral text) :
    Outside (before ++ text) stack :=
  ⟨by rw [h.scan_append, htext.scan_eq h.inCode], h.inCode⟩

theorem opener (h : Outside before stack) (hc : Delimiter.ofOpener? c = some d) :
    Outside (before ++ [c]) (d :: stack) :=
  ⟨by rw [h.scan_append, scan_opener hc h.inCode, scan],
    inCode_cons (ne_string_of_ofOpener? hc) stack⟩

theorem closer (h : Outside before (d :: stack)) (hc : Delimiter.ofCloser? c = some d)
    (hstack : InCode stack) : Outside (before ++ [c]) stack :=
  ⟨by rw [h.scan_append, scan_closer hc, scan], hstack⟩

/-- Strings are open at the same places of a neutral text wherever it stands. -/
theorem endsInString_append (h : Outside before stack) {p rest : List Char}
    (htext : Neutral (p ++ rest)) : endsInString (before ++ p) = endsInString p := by
  have hwhole : scan 0 [] (p ++ rest) = .ok [] := htext.scan_eq inCode_nil
  obtain ⟨inner, hinner⟩ := exists_scan_of_append hwhole
  have habove : scan before.length stack p = .ok (inner ++ stack) := by
    simpa using scan_above hinner h.inCode before.length
  unfold endsInString
  rw [h.scan_append, habove, hinner]
  cases inner with
  | nil =>
    have hfalse := h.endsInString_eq_false
    unfold endsInString at hfalse
    rw [h.scanned] at hfalse
    simpa using hfalse
  | cons d inner => cases d <;> rfl

/-- A neutral text loses the same blanks wherever it stands. -/
theorem unspacedFrom_of_neutral (h : Outside before stack) (htext : Neutral text) :
    unspacedFrom before text = unspaced text := by
  refine unspacedFrom_congr fun p rest hp => ?_
  rw [List.nil_append]
  exact h.endsInString_append (hp ▸ htext)

/-- Outside strings, blanks between lexemes are deleted. -/
theorem unspacedFrom_of_blank (h : Outside before stack) (hblank : Laid [] text) :
    unspacedFrom before text = [] := by
  have hblanks := hblank.blank_of_nil
  clear hblank
  induction text generalizing before with
  | nil => rfl
  | cons c text ih =>
    obtain ⟨hc, htext⟩ := List.forall_mem_cons.mp hblanks
    have hplain : isDelimiter c = false := by
      rcases hc with rfl | rfl <;> decide
    have hnext : Outside (before ++ [c]) stack :=
      h.neutral (neutral_of_plain (List.forall_mem_singleton.mpr hplain))
    rw [unspacedFrom, if_pos ⟨hc, by rw [h.endsInString_eq_false, Bool.not_false]⟩, ih hnext htext]

/-- Blanks in front of a lexeme are deleted, and of the lexeme what is deleted of it by itself. -/
theorem unspacedFrom_lexeme {blanks chars : List Char} (h : Outside before stack)
    (hblanks : Laid [] blanks)
    (hchars : unspacedFrom (before ++ blanks) chars = unspaced chars) (rest : List Char) :
    unspacedFrom before (blanks ++ (chars ++ rest)) =
      unspaced chars ++ unspacedFrom (before ++ blanks ++ chars) rest := by
  rw [unspacedFrom_append, unspacedFrom_append, h.unspacedFrom_of_blank hblanks, hchars,
    List.nil_append]

end Outside

/-- A bracket is kept wherever it stands. -/
theorem unspacedFrom_bracket {c : Char} (h : isDelimiter c) (before : List Char) :
    unspacedFrom before [c] = unspaced [c] := by
  have hkept : ¬(c = ' ' ∨ c = '\n') := by
    rintro (rfl | rfl) <;> exact absurd h (by decide)
  simp [unspaced, unspacedFrom, hkept]

end Expression

open Expression

/-! ### Documents -/

/-- Lexemes in a row, each without the blanks outside its strings. -/
def Lexeme.unspacedRow (lexemes : List Lexeme) : List Char :=
  lexemes.flatMap fun lexeme => unspaced lexeme.chars

/-- Nothing of the layout is left of a text that is laid out from balanced lexemes. -/
theorem Balanced.unspacedFrom_of_laid {lexemes : List Lexeme} {text : List Char}
    (h : Balanced lexemes) (hlaid : Laid lexemes text) {before : List Char}
    {stack : List Delimiter} (hbefore : Outside before stack) :
    unspacedFrom before text = Lexeme.unspacedRow lexemes := by
  induction h generalizing text before stack with
  | nil => exact hbefore.unspacedFrom_of_blank hlaid
  | @text chars _ hchars _ ih =>
    obtain ⟨blanks, rest, rfl, hblanks, hrest⟩ := hlaid.of_cons
    have hfront := hbefore.neutral (neutral_of_laid_nil hblanks)
    rw [Lexeme.chars,
      hbefore.unspacedFrom_lexeme hblanks (hfront.unspacedFrom_of_neutral hchars),
      ih hrest (hfront.neutral hchars)]
    rfl
  | @mark c _ hc _ ih =>
    obtain ⟨blanks, rest, rfl, hblanks, hrest⟩ := hlaid.of_cons
    have hmark : Neutral [c] := neutral_of_plain (List.forall_mem_singleton.mpr hc)
    have hfront := hbefore.neutral (neutral_of_laid_nil hblanks)
    rw [Lexeme.chars, hbefore.unspacedFrom_lexeme hblanks (hfront.unspacedFrom_of_neutral hmark),
      ih hrest (hfront.neutral hmark)]
    rfl
  | append ha _ iha ihb =>
    obtain ⟨s, t, rfl, hs, ht⟩ := hlaid.of_append
    rw [unspacedFrom_append, iha hs hbefore, ihb ht (hbefore.neutral (ha.neutral_of_laid hs)),
      Lexeme.unspacedRow, Lexeme.unspacedRow, Lexeme.unspacedRow, List.flatMap_append]
  | @enclosed opener closer d inner hopener hcloser hinner ih =>
    obtain ⟨blanks, rest, rfl, hblanks, hrest⟩ := hlaid.of_cons
    obtain ⟨inside, rest, rfl, hinside, hrest⟩ := Laid.of_append hrest
    obtain ⟨between, behind, rfl, hbetween, hbehind⟩ := hrest.of_cons
    have hopens : isDelimiter opener := by simp [isDelimiter, hopener]
    have hcloses : isDelimiter closer := by simp [isDelimiter, hcloser]
    have hfront := (hbefore.neutral (neutral_of_laid_nil hblanks)).opener hopener
    have hback := hfront.neutral (hinner.neutral_of_laid hinside)
    have hend := (hback.neutral (neutral_of_laid_nil hbetween)).closer hcloser hbefore.inCode
    rw [Lexeme.chars, Lexeme.chars,
      hbefore.unspacedFrom_lexeme hblanks (unspacedFrom_bracket hopens _), unspacedFrom_append,
      ih hinside hfront, hback.unspacedFrom_lexeme hbetween (unspacedFrom_bracket hcloses _),
      hend.unspacedFrom_of_blank hbehind]
    simp [Lexeme.unspacedRow, Lexeme.chars]

namespace Document

/-- **Formats decide about layout only.** In two formats that check raw expressions alike, a
document fails with the same fault, or it compiles and the two texts are the same but for the spaces
and line feeds outside strings. The texts are compared where strings can be told from the rest: the
raw expressions balance, the names of references hold no quotes and no brackets, and the templates
that are given as nodes are canonical. -/
theorem unspaced_compile {f g : Format} (hvalidate : f.validate = g.validate)
    (nodes : List Value) :
    (∃ fault, compile f nodes = .error fault ∧ compile g nodes = .error fault) ∨
      ∃ s t, compile f nodes = .ok s ∧ compile g nodes = .ok t ∧
        ((∀ leaf ∈ Block.itemLeaves nodes, leaf.IsSound) → unspaced s = unspaced t) := by
  have halike := alike_compile hvalidate nodes
  cases hf : compile f nodes with
  | error fault => exact .inl ⟨fault, rfl, (halike.error_iff fault).mp hf⟩
  | ok s =>
    obtain ⟨t, hg, -⟩ := halike.exists_ok hf
    refine .inr ⟨s, t, rfl, hg, fun hsound => ?_⟩
    obtain ⟨hwritten, hs⟩ := laid_compile hf
    obtain ⟨-, ht⟩ := laid_compile hg
    have hbalanced := Block.balanced_itemOutlines hwritten hsound
    rw [unspaced, unspaced, hbalanced.unspacedFrom_of_laid hs outside_nil,
      hbalanced.unspacedFrom_of_laid ht outside_nil]

/-- A format in which every option is other than by default, but for the check of expressions. -/
def spaciousFormat : Format where
  blankLines := false
  alignEquals := true
  inlineMax := some 1
  indentWidth := 4

/-- A block with a raw expression over two lines, a text with blanks, a short and a long list. -/
def spacedBlocks : List Value :=
  [.block (.list [.text "a", .text "b c"])
    (.mapping
      [(.text "x", .mapping [(.text "$func", .text "f( 1,\n 2)")]), (.text "long", .text "p  q"),
        (.text "y", .list [.int 1]), (.text "z", .list [.int 1, .text "r = s"])])
    (.list [.block (.list [.text "d"]) (.mapping []) (.list [])])]

/-- In two formats, a block has two texts that differ in their layout only. -/
theorem unspaced_compile_spacedBlocks :
    ({} : Format).validate = spaciousFormat.validate ∧
      (∀ leaf ∈ Block.itemLeaves spacedBlocks, leaf.IsSound) ∧
      ∃ s t, compile {} spacedBlocks = .ok s ∧ compile spaciousFormat spacedBlocks = .ok t ∧
        s ≠ t ∧ unspaced s = unspaced t := by
  have hsound : ∀ leaf ∈ Block.itemLeaves spacedBlocks, leaf.IsSound := by
    change ∀ leaf ∈
      [Value.raw (.text "f( 1,\n 2)"), .text "p  q", .int 1, .int 1, .text "r = s"], leaf.IsSound
    simp only [List.mem_cons, List.not_mem_nil, or_false]
    rintro leaf (rfl | rfl | rfl | rfl | rfl)
    · exact rfl
    all_goals trivial
  have hclose : compile {} spacedBlocks =
      .ok ("a \"b c\" \x7b\n  x = f( 1,\n 2)\n  long = \"p  q\"\n  y = [1]\n".toList ++
        "  z = [1, \"r = s\"]\n\n  d \x7b\n  \x7d\n\x7d\n".toList) := rfl
  have hspacious : compile spaciousFormat spacedBlocks =
      .ok ("a \"b c\" \x7b\n    x = f( 1,\n 2)\n    long = \"p  q\"\n    y    = [1]\n".toList ++
        "    z = [\n        1,\n        \"r = s\"\n    ]\n    d \x7b\n    \x7d\n\x7d\n".toList) :=
    rfl
  refine ⟨rfl, hsound, ?_⟩
  rcases unspaced_compile (show ({} : Format).validate = spaciousFormat.validate from rfl)
    spacedBlocks with ⟨fault, hfault, -⟩ | ⟨s, t, hs, ht, hunspaced⟩
  · rw [hclose] at hfault
    cases hfault
  · refine ⟨s, t, hs, ht, ?_, hunspaced hsound⟩
    rw [hclose, Except.ok.injEq] at hs
    rw [hspacious, Except.ok.injEq] at ht
    rw [← hs, ← ht]
    decide

end Document

end Stanza
