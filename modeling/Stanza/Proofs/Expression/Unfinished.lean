import Stanza.Proofs.Expression.Grammar

/-!
Texts that are not finished.

A text that the grammar does not derive may be the beginning of one that it does. `OpenCode` is the
grammar of such beginnings, with the delimiters that each of them leaves open, and what the scanner
has open at the end of a text are just these (`scan_eq_ok_iff_openCode`). A beginning can always be
completed: by a letter, so that nothing it ends in the middle of goes on, and the closers of what
is open (`code_of_openCode`). A closer out of place ends this for good (`stopsAt_of_scan`).

So the report about a text that is turned down points at the first place from where no completion is
left, or names the innermost delimiter that the text leaves open: `check_pinpoints`.
-/

namespace Stanza.Expression

/-! ### The grammar of beginnings -/

mutual

/-- Code that breaks off and leaves some delimiters open, the last one first. -/
inductive OpenCode : List Delimiter → List Char → Prop where
  | code {text : List Char} : Code text → OpenCode [] text
  | bracket {left : List Delimiter} {d : Delimiter} {before inside : List Char} {opener : Char} :
      Code before → (opener, d.closer) ∈ brackets → OpenCode left inside →
      OpenCode (left ++ [d]) (before ++ opener :: inside)
  | string {left : List Delimiter} {before content : List Char} :
      Code before → OpenLiteral left content →
      OpenCode (left ++ [.string]) (before ++ '"' :: content)

/-- What follows the first quote of a string that is not ended. What is left open are the delimiters
inside the string. -/
inductive OpenLiteral : List Delimiter → List Char → Prop where
  | nil : OpenLiteral [] []
  | slash : OpenLiteral [] ['\\']
  | escape {left : List Delimiter} (c : Char) {rest : List Char} :
      OpenLiteral left rest → OpenLiteral left ('\\' :: c :: rest)
  | doubled {left : List Delimiter} {sign : Char} {rest : List Char} :
      sign ∈ ['$', '%'] → OpenLiteral left rest → OpenLiteral left (sign :: sign :: '\x7b' :: rest)
  | splice {left : List Delimiter} {sign : Char} {inside rest : List Char} :
      sign ∈ ['$', '%'] → Code inside → OpenLiteral left rest →
      OpenLiteral left (sign :: '\x7b' :: inside ++ '\x7d' :: rest)
  | char {left : List Delimiter} {c : Char} {rest : List Char} :
      c ≠ '"' → ¬BeginsUnit (c :: rest) → OpenLiteral left rest → OpenLiteral left (c :: rest)
  | openSplice {left : List Delimiter} {sign : Char} {inside : List Char} :
      sign ∈ ['$', '%'] → OpenCode left inside →
      OpenLiteral (left ++ [.brace]) (sign :: '\x7b' :: inside)

end

variable {stack final left : List Delimiter} {text : List Char} {c : Char} {d : Delimiter}

theorem ofOpener?_of_mem_brackets {opener : Char} (h : (opener, d.closer) ∈ brackets) :
    Delimiter.ofOpener? opener = some d := by
  obtain ⟨found, hopener, hcloser⟩ := exists_of_mem_brackets h
  cases d <;> simp_all [Delimiter.closer, Delimiter.ofCloser?]

/-! ### Beginnings are completed -/

/-- Code goes on with code. -/
theorem Code.append {more : List Char} (h : Code text) (hmore : Code more) :
    Code (text ++ more) := by
  rw [← isBalanced_iff_code, isBalanced_iff_scan, neutral_of_code h _ _ _ inCode_nil]
  simpa [scan] using neutral_of_code hmore (0 + text.length) [] [] inCode_nil

theorem prefix_of_prefix_append_cons {part more : List Char}
    (h : part <+: text ++ c :: more) (hc : c ∉ part) : part <+: text := by
  rcases Nat.lt_or_ge text.length part.length with hlonger | hshorter
  · have hpart : text ++ [c] <+: part :=
      List.prefix_of_prefix_length_le ⟨more, by simp⟩ h (by rw [List.length_append]; exact hlonger)
    exact absurd (hpart.subset (by simp)) hc
  · exact List.prefix_of_prefix_length_le h (List.prefix_append text _) hshorter

/-- The letter makes nothing longer of what a text ends in. -/
theorem BeginsUnit.of_letter {rest more : List Char} (h : BeginsUnit (c :: rest ++ 'a' :: more)) :
    BeginsUnit (c :: rest) := by
  rcases h with hslash | ⟨sign, hsign, hunit⟩
  · exact .inl hslash
  · have hletter : ∀ sign ∈ ['$', '%'], 'a' ∉ [sign, sign, '\x7b'] ∧ 'a' ∉ [sign, '\x7b'] := by
      simp
    exact .inr ⟨sign, hsign, hunit.imp
      (prefix_of_prefix_append_cons · (hletter sign hsign).1)
      (prefix_of_prefix_append_cons · (hletter sign hsign).2)⟩

mutual

/-- **Every beginning is completed.** A letter and the closers of what is left open make code of
it. -/
theorem code_of_openCode {left : List Delimiter} {text : List Char} (h : OpenCode left text) :
    Code (text ++ 'a' :: left.map Delimiter.closer) := by
  have hletter : Code ['a'] := .plain (isPlain_iff.mpr (by decide)) .nil
  cases h with
  | code hcode => exact hcode.append hletter
  | @bracket left d before inside opener hbefore hpair hinside =>
    have hclosed := Code.bracketed hpair (code_of_openCode hinside) .nil
    simpa using hbefore.append hclosed
  | @string left before content hbefore hcontent =>
    have hclosed := Code.string (literal_of_openLiteral hcontent) .nil
    simpa [Delimiter.closer] using hbefore.append hclosed
termination_by text.length
decreasing_by all_goals simp only [List.length_append, List.length_cons]; omega

/-- A letter, the closers of what is left open inside a string and a quote end the string. -/
theorem literal_of_openLiteral {left : List Delimiter} {content : List Char}
    (h : OpenLiteral left content) :
    Literal (content ++ 'a' :: left.map Delimiter.closer ++ ['"']) := by
  have hletter : Literal ['a', '"'] :=
    .char (by decide) (by rintro (h | ⟨sign, hsign, h | h⟩) <;> simp_all) .quote
  cases h with
  | nil => exact hletter
  | slash => exact .escape 'a' .quote
  | escape c hrest => exact .escape c (literal_of_openLiteral hrest)
  | doubled hsign hrest => exact .doubled hsign (literal_of_openLiteral hrest)
  | splice hsign hinside hrest =>
    simpa using Literal.splice hsign hinside (literal_of_openLiteral hrest)
  | char hquote hunit hrest =>
    have hcompleted := literal_of_openLiteral hrest
    rw [List.append_assoc] at hcompleted ⊢
    exact .char hquote (fun hbegins => hunit hbegins.of_letter) hcompleted
  | openSplice hsign hinside =>
    simpa [Delimiter.closer] using Literal.splice hsign (code_of_openCode hinside) .quote
termination_by content.length
decreasing_by all_goals simp only [List.length_append, List.length_cons]; omega

end

/-! ### What the scanner has open -/

mutual

/-- At the end of a beginning the scanner has open what is left open, above what was open before. -/
theorem scan_of_openCode {left : List Delimiter} {text : List Char} (h : OpenCode left text)
    (offset : Nat) (stack : List Delimiter) (hstack : InCode stack) :
    scan offset stack text = .ok (left ++ stack) := by
  cases h with
  | code hcode => simpa [scan] using neutral_of_code hcode offset stack [] hstack
  | @bracket left d before inside opener hbefore hpair hinside =>
    have hopener := ofOpener?_of_mem_brackets hpair
    rw [neutral_of_code hbefore _ _ _ hstack, scan_opener hopener hstack,
      scan_of_openCode hinside _ _ (inCode_cons (ne_string_of_ofOpener? hopener) stack),
      List.append_assoc, List.singleton_append]
  | @string left before content hbefore hcontent =>
    rw [neutral_of_code hbefore _ _ _ hstack, scan_quote hstack,
      scan_of_openLiteral hcontent, List.append_assoc, List.singleton_append]
termination_by text.length
decreasing_by all_goals simp only [List.length_append, List.length_cons]; omega

theorem scan_of_openLiteral {left : List Delimiter} {content : List Char}
    (h : OpenLiteral left content) (offset : Nat) (stack : List Delimiter) :
    scan offset (.string :: stack) content = .ok (left ++ .string :: stack) := by
  cases h with
  | nil => rfl
  | slash => rfl
  | escape c hrest => rw [scan, scan_of_openLiteral hrest]
  | @doubled _ sign rest hsign hrest =>
    have hstep : scan offset (.string :: stack) (sign :: sign :: '\x7b' :: rest) =
        scan (offset + 3) (.string :: stack) rest := by
      rcases mem_signs_iff.mp hsign with rfl | rfl <;> simp [scan]
    rw [hstep, scan_of_openLiteral hrest]
  | splice hsign hinside hrest =>
    rw [scan_interpolation (isSign_iff_mem.mpr hsign) (neutral_of_code hinside),
      scan_of_openLiteral hrest]
  | char hquote hunit hrest =>
    obtain ⟨hslash, hapart⟩ := apart_of_not_beginsUnit hunit
    rw [scan_char hquote hslash hapart, scan_of_openLiteral hrest]
  | @openSplice left sign inside hsign hinside =>
    have hstep : scan offset (.string :: stack) (sign :: '\x7b' :: inside) =
        scan (offset + 2) (.brace :: .string :: stack) inside := by
      rcases mem_signs_iff.mp hsign with rfl | rfl <;> simp [scan]
    rw [hstep, scan_of_openCode hinside _ _ (inCode_cons (by simp) _), List.append_assoc,
      List.singleton_append]
termination_by content.length
decreasing_by all_goals simp only [List.length_append, List.length_cons]; omega

end

/-- What a text has to be for the scanner to come from some open delimiters to others: it closes the
first of them and goes on, or leaves all of them open and opens others above them. -/
def Reaches : List Delimiter → List Char → List Delimiter → Prop
  | [], text, final => OpenCode final text
  | .string :: stack, text, final =>
      (∃ left, OpenLiteral left text ∧ final = left ++ .string :: stack) ∨
        ∃ content rest, text = content ++ rest ∧ Literal content ∧ Reaches stack rest final
  | d :: stack, text, final =>
      (∃ left, OpenCode left text ∧ final = left ++ d :: stack) ∨
        ∃ inside rest, text = inside ++ d.closer :: rest ∧ Code inside ∧ Reaches stack rest final

theorem reaches_cons (h : d ≠ .string) :
    Reaches (d :: stack) text final ↔
      (∃ left, OpenCode left text ∧ final = left ++ d :: stack) ∨
        ∃ inside rest, text = inside ++ d.closer :: rest ∧ Code inside ∧
          Reaches stack rest final := by
  cases d with
  | string => exact absurd rfl h
  | _ => rfl

/-- Outside strings, whatever is open may stay open. -/
theorem OpenCode.reaches (h : OpenCode left text) (hstack : InCode stack) :
    Reaches stack text (left ++ stack) := by
  cases stack with
  | nil => simpa [Reaches] using h
  | cons d stack => exact (reaches_cons (by simpa [InCode] using hstack)).mpr (.inl ⟨left, h, rfl⟩)

/-- What can stand in front of code can stand in front of its beginnings. -/
theorem OpenCode.lead (front : List Char) (hfront : ∀ code, Code code → Code (front ++ code))
    (h : OpenCode left text) : OpenCode left (front ++ text) := by
  cases h with
  | code hcode => exact .code (hfront _ hcode)
  | bracket hbefore hpair hinside =>
    rw [← List.append_assoc]
    exact .bracket (hfront _ hbefore) hpair hinside
  | string hbefore hcontent =>
    rw [← List.append_assoc]
    exact .string (hfront _ hbefore) hcontent

theorem Reaches.lead (front : List Char) (hstack : InCode stack)
    (hfront : ∀ code, Code code → Code (front ++ code)) (h : Reaches stack text final) :
    Reaches stack (front ++ text) final := by
  cases stack with
  | nil => exact OpenCode.lead front hfront h
  | cons d stack =>
    have hd : d ≠ .string := by simpa [InCode] using hstack
    rcases (reaches_cons hd).mp h with ⟨left, hleft, rfl⟩ | ⟨inside, rest, rfl, hinside, hrest⟩
    · exact (hleft.lead front hfront).reaches hstack
    · exact (reaches_cons hd).mpr
        (.inr ⟨front ++ inside, rest, by simp, hfront inside hinside, hrest⟩)

/-- In a string, what can stand in front of its rest, ended or not, can stand in front of what is
left. -/
theorem Reaches.leadString (front : List Char)
    (hopen : ∀ left, OpenLiteral left text → OpenLiteral left (front ++ text))
    (hfront : ∀ content rest, text = content ++ rest → Literal content → Literal (front ++ content))
    (h : Reaches (.string :: stack) text final) :
    Reaches (.string :: stack) (front ++ text) final := by
  rcases h with ⟨left, hleft, rfl⟩ | ⟨content, rest, rfl, hcontent, hrest⟩
  · exact .inl ⟨left, hopen left hleft, rfl⟩
  · exact .inr ⟨front ++ content, rest, by simp, hfront content rest rfl hcontent, hrest⟩

/-- In a string, an interpolation is not ended, or it is and the string goes on. -/
theorem Reaches.splice {sign : Char} (hsign : sign ∈ ['$', '%'])
    (h : Reaches (.brace :: .string :: stack) text final) :
    Reaches (.string :: stack) (sign :: '\x7b' :: text) final := by
  rcases h with ⟨left, hleft, rfl⟩ | ⟨inside, rest, rfl, hinside, hrest⟩
  · exact .inl ⟨left ++ [.brace], .openSplice hsign hleft, by simp⟩
  · simpa [Delimiter.closer] using hrest.leadString (sign :: '\x7b' :: inside ++ ['\x7d'])
      (fun left hleft => by simpa using hleft.splice hsign hinside)
      (fun content _ _ hcontent => by simpa using hcontent.splice hsign hinside)

/-- **The scanner finds what is left open.** Whatever it has open at the end of a text, the text is
a beginning that leaves just this open. -/
theorem reaches_of_scan {offset : Nat} (h : scan offset stack text = .ok final) :
    Reaches stack text final := by
  fun_induction scan offset stack text
  case case1 stack =>
    obtain rfl := Except.ok.inj h
    by_cases hstack : InCode stack
    · exact (OpenCode.code .nil).reaches hstack
    · obtain ⟨below, rfl⟩ : ∃ below, stack = .string :: below := by
        simpa [InCode, List.head?_eq_some_iff] using hstack
      exact .inl ⟨[], .nil, rfl⟩
  case case2 =>
    obtain rfl := Except.ok.inj h
    exact .inl ⟨[], .slash, rfl⟩
  case case3 c rest ih =>
    exact (ih h).leadString ['\\', c] (fun _ hleft => .escape c hleft)
      fun _ _ _ hcontent => .escape c hcontent
  case case4 rest ih =>
    exact (ih h).leadString ['$', '$', '\x7b'] (fun _ hleft => .doubled (by simp) hleft)
      fun _ _ _ hcontent => .doubled (by simp) hcontent
  case case5 rest ih =>
    exact (ih h).leadString ['%', '%', '\x7b'] (fun _ hleft => .doubled (by simp) hleft)
      fun _ _ _ hcontent => .doubled (by simp) hcontent
  case case6 rest ih => exact (ih h).splice (by simp)
  case case7 rest ih => exact (ih h).splice (by simp)
  case case8 rest _ _ _ _ _ _ ih => exact .inr ⟨['"'], rest, rfl, .quote, ih h⟩
  case case9 c rest hlast hslash hdollars hpercents hdollar hpercent hquote ih =>
    have hunit := not_beginsUnit hlast hslash hdollars hpercents hdollar hpercent
    refine (ih h).leadString [c] (fun _ hleft => .char hquote hunit hleft)
      fun content more hsplit hcontent => ?_
    refine .char hquote (fun hbegins => hunit ?_) hcontent
    rw [hsplit]
    exact hbegins.append more
  case case10 hcode _ _ _ _ _ _ ih =>
    have hstack := inCode_of_forall_ne hcode
    rcases ih h with ⟨left, hleft, rfl⟩ | ⟨content, rest, rfl, hcontent, hrest⟩
    · simpa using (OpenCode.string .nil hleft).reaches hstack
    · exact hrest.lead ('"' :: content) hstack fun _ hcode => .string hcontent hcode
  case case11 c _ _ _ _ _ _ _ hcode _ opened hopener ih =>
    have hstack := inCode_of_forall_ne hcode
    have hpair := mem_brackets hopener
    rcases (reaches_cons (ne_string_of_ofOpener? hopener)).mp (ih h) with
      ⟨left, hleft, rfl⟩ | ⟨inside, rest, rfl, hinside, hrest⟩
    · simpa using (OpenCode.bracket .nil hpair hleft).reaches hstack
    · simpa using hrest.lead (c :: inside ++ [opened.closer]) hstack
        fun code hcode => by simpa using Code.bracketed hpair hinside hcode
  case case12 c rest _ _ _ _ _ _ hcode hquote hcloser hopener ih =>
    have hplain : isDelimiter c = false := by simp [isDelimiter, hquote, hcloser, hopener]
    exact (ih h).lead [c] (inCode_of_forall_ne hcode)
      fun _ hcode => .plain (isPlain_iff.mpr hplain) hcode
  case case13 hcloser ih =>
    obtain rfl := eq_closer hcloser
    have hbracket := (ofOpener?_eq_none_of_ofCloser? hcloser).2.2
    exact (reaches_cons hbracket).mpr (.inr ⟨[], _, rfl, .nil, ih h⟩)
  case case14 | case15 => cases h

/-- What the scanner has open at the end of a text is what the text leaves open. -/
theorem scan_eq_ok_iff_openCode : scan 0 [] text = .ok left ↔ OpenCode left text := by
  constructor
  · exact reaches_of_scan
  · intro h
    simpa using scan_of_openCode h 0 [] inCode_nil

/-! ### Where the scanner stops -/

/-- The scanner stops at a closer out of place: it can read the text up to there, is outside
strings, and the closer does not fit what is open, whatever comes next. -/
def StopsAt (offset : Nat) (stack : List Delimiter) (text : List Char) (found : Imbalance) :
    Prop :=
  ∃ before c after final, text = before ++ c :: after ∧
    found = .unexpected c (offset + before.length) ∧
    scan offset stack before = .ok final ∧ InCode final ∧
    ∀ start rest, scan start final (c :: rest) = .error (.unexpected c start)

variable {offset : Nat} {found : Imbalance}

/-- A turn of the scanner before it stops is the same turn where the text breaks off. -/
theorem StopsAt.turn {next : List Delimiter} (front : List Char)
    (h : StopsAt (offset + front.length) next text found)
    (hturn : ∀ before after, text = before ++ after →
      scan offset stack (front ++ before) = scan (offset + front.length) next before) :
    StopsAt offset stack (front ++ text) found := by
  obtain ⟨before, c, after, final, rfl, rfl, hscan, hfinal, herror⟩ := h
  refine ⟨front ++ before, c, after, final, by simp, by simp [Nat.add_assoc], ?_, hfinal, herror⟩
  rw [hturn before (c :: after) rfl, hscan]

/-- A closer that does not fit what is open last. -/
theorem stopsAt_closer (hcloser : Delimiter.ofCloser? c = some d) (hstack : InCode stack)
    (hfit : stack.head? ≠ some d) (offset : Nat) (rest : List Char) :
    StopsAt offset stack (c :: rest) (.unexpected c offset) := by
  refine ⟨[], c, rest, stack, rfl, rfl, by rw [scan], hstack, fun start more => ?_⟩
  obtain ⟨hopener, hquote, -⟩ := ofOpener?_eq_none_of_ofCloser? hcloser
  rw [scan_code stack start c more hstack, if_neg hquote, hopener, hcloser]
  cases stack with
  | nil => rfl
  | cons top below => exact if_neg (by simpa using hfit)

theorem stopsAt_of_scan (h : scan offset stack text = .error found) :
    StopsAt offset stack text found := by
  fun_induction scan offset stack text
  case case1 | case2 => cases h
  case case3 d rest ih => exact (ih h).turn ['\\', d] fun _ _ _ => rfl
  case case4 rest ih => exact (ih h).turn ['$', '$', '\x7b'] fun _ _ _ => rfl
  case case5 rest ih => exact (ih h).turn ['%', '%', '\x7b'] fun _ _ _ => rfl
  case case6 rest ih => exact (ih h).turn ['$', '\x7b'] fun _ _ _ => rfl
  case case7 rest ih => exact (ih h).turn ['%', '\x7b'] fun _ _ _ => rfl
  case case8 rest _ _ _ _ _ _ ih => exact (ih h).turn ['"'] fun _ _ _ => rfl
  case case9 d rest hlast hslash hdollars hpercents hdollar hpercent hquote ih =>
    refine (ih h).turn [d] fun before after hsplit => ?_
    -- nothing longer begins in the whole text, so nothing does where it breaks off
    have hunit : ¬BeginsUnit (d :: before) := fun hbegins =>
      not_beginsUnit hlast hslash hdollars hpercents hdollar hpercent
        (by rw [hsplit]; exact hbegins.append after)
    obtain ⟨hslash, hapart⟩ := apart_of_not_beginsUnit hunit
    exact scan_char hquote hslash hapart _ _
  case case10 rest hcode _ _ _ _ _ _ ih =>
    exact (ih h).turn ['"'] fun _ _ _ => scan_quote (inCode_of_forall_ne hcode) _ _
  case case11 d _ _ _ _ _ _ _ hcode _ opened hopener ih =>
    exact (ih h).turn [d] fun _ _ _ => scan_opener hopener (inCode_of_forall_ne hcode) _ _
  case case12 d rest _ _ _ _ _ _ hcode hquote hcloser hopener ih =>
    have hplain : isDelimiter d = false := by simp [isDelimiter, hquote, hcloser, hopener]
    exact (ih h).turn [d] fun _ _ _ => scan_plain hplain (inCode_of_forall_ne hcode) _ _
  case case13 d _ _ _ _ _ _ _ _ _ _ _ _ hcloser ih =>
    exact (ih h).turn [d] fun _ _ _ => scan_closer hcloser _ _ _
  case case14 hcloser _ _ _ hfit _ _ _ _ _ _ hcode =>
    obtain rfl := Except.error.inj h
    exact stopsAt_closer hcloser (inCode_of_forall_ne hcode) (by simpa using hfit) _ _
  case case15 hcloser _ _ _ _ _ _ _ _ =>
    obtain rfl := Except.error.inj h
    exact stopsAt_closer hcloser inCode_nil (by simp) _ _

/-! ### What the report says -/

/-- A text can go on so that the check accepts it. -/
def IsCompletable (text : List Char) : Prop :=
  ∃ more, check (.text (String.ofList (text ++ more))) [] = .ok (String.ofList (text ++ more))

/-- Where the report of a text that is turned down points: at the closer from which on the text
cannot be completed, while up to it it can; or, if all of it can be completed, at the innermost
delimiter it leaves open. -/
inductive Pinpoints (s : String) : Cause → Prop where
  | closer {c : Char} {before after : List Char} :
      s.toList = before ++ c :: after → IsCompletable before → ¬IsCompletable (before ++ [c]) →
      Pinpoints s (.unexpectedCloser c before.length s)
  | string {outer : List Delimiter} :
      IsCompletable s.toList → (∀ left, OpenCode left s.toList ↔ left = .string :: outer) →
      Pinpoints s (.unterminated s)
  | bracket {d : Delimiter} {outer : List Delimiter} : d ≠ .string →
      IsCompletable s.toList → (∀ left, OpenCode left s.toList ↔ left = d :: outer) →
      Pinpoints s (.missingCloser d.closer s)

theorem check_ofList_eq_ok_iff :
    check (.text (String.ofList text)) [] = .ok (String.ofList text) ↔
      Text.allBlank text = false ∧ Code text := by
  rw [← isBalanced_iff_code, ← @String.toList_ofList text, ← rejection?_eq_none_iff,
    String.toList_ofList]
  cases hrejection : rejection? (String.ofList text) with
  | none => simp [check, checkText, hrejection]
  | some cause => simp [check, checkText, hrejection, fail_ne_ok]

/-- What leaves some delimiters open can be completed. The letter keeps it from being blank. -/
theorem isCompletable_of_openCode (h : OpenCode left text) : IsCompletable text := by
  have hletter : Text.isBlank 'a' = false := by decide
  refine ⟨'a' :: left.map Delimiter.closer, check_ofList_eq_ok_iff.mpr ⟨?_, code_of_openCode h⟩⟩
  simp [Text.allBlank, hletter]

/-- The text up to where the scanner stops can be completed, and with one character more it
cannot. -/
theorem isCompletable_of_stopsAt (h : StopsAt 0 [] text found) :
    ∃ before c after, text = before ++ c :: after ∧ found = .unexpected c before.length ∧
      IsCompletable before ∧ ¬IsCompletable (before ++ [c]) := by
  obtain ⟨before, c, after, final, htext, hfound, hscan, hfinal, herror⟩ := h
  refine ⟨before, c, after, htext, by simpa using hfound,
    isCompletable_of_openCode (scan_eq_ok_iff_openCode.mp hscan), ?_⟩
  rintro ⟨more, haccepted⟩
  rw [List.append_assoc, List.singleton_append, check_ofList_eq_ok_iff, ← isBalanced_iff_code,
    isBalanced_iff_scan] at haccepted
  have hstops := scan_append hscan hfinal inCode_nil 0 (c :: more)
  rw [List.append_nil, List.append_nil, haccepted.2, herror] at hstops
  cases hstops

theorem pinpoints_of_rejection? {s : String} {cause : Cause}
    (hblank : Text.allBlank s.toList = false) (h : rejection? s = some cause) :
    Pinpoints s cause := by
  have hleft : ∀ {d outer}, scan 0 [] s.toList = .ok (d :: outer) →
      ∀ left, OpenCode left s.toList ↔ left = d :: outer := by
    intro d outer hscan left
    rw [← scan_eq_ok_iff_openCode, hscan, Except.ok.injEq, eq_comm]
  rw [rejection?, hblank, imbalance?] at h
  cases hscan : scan 0 [] s.toList with
  | error found =>
    obtain ⟨before, c, after, htext, rfl, hbefore, hclosed⟩ :=
      isCompletable_of_stopsAt (stopsAt_of_scan hscan)
    rw [hscan] at h
    obtain rfl := Option.some.inj h
    exact .closer htext hbefore hclosed
  | ok final =>
    have hcompletable := isCompletable_of_openCode (scan_eq_ok_iff_openCode.mp hscan)
    rw [hscan] at h
    match final, hscan with
    | [], _ => cases h
    | .string :: outer, hscan =>
      obtain rfl := Option.some.inj h
      exact .string hcompletable (hleft hscan)
    | .paren :: outer, hscan | .square :: outer, hscan | .brace :: outer, hscan =>
      obtain rfl := Option.some.inj h
      exact .bracket (by simp) hcompletable (hleft hscan)

/-- **The report points at the first place of no return.** When a text that is not blank is turned
down, the report names a closer with its place: what stands before it can be completed, and with the
closer it cannot be, whatever comes next. Or the whole text can be completed, and the report names
the innermost delimiter that the text leaves open. -/
theorem check_pinpoints {s : String} {path : Path} (hblank : Text.allBlank s.toList = false)
    (hrejected : check (.text s) path ≠ .ok s) :
    ∃ cause : Cause, check (.text s) path = fail cause path ∧
      check (.text s) [] = .error (.compile ⟨cause, []⟩) ∧ Pinpoints s cause := by
  cases hrejection : rejection? s with
  | none => exact absurd (by simp [check, checkText, hrejection]) hrejected
  | some cause =>
    exact ⟨cause, check_of_rejection? hrejection path, check_nil_of_rejection? hrejection,
      pinpoints_of_rejection? hblank hrejection⟩

/-- A square bracket closes in an interpolation where a round one is open: the call before it can
still be completed. -/
theorem check_pinpoints_spliced :
    let s := "\"$\x7bf(]"
    Text.allBlank s.toList = false ∧ check (.text s) [] ≠ .ok s ∧
      Pinpoints s (.unexpectedCloser ']' 5 s) := by
  intro s
  have hblank : Text.allBlank s.toList = false := by decide
  have himbalance : imbalance? s.toList = some (.unexpected ']' 5) := by decide
  have hcheck : check (.text s) [] = .error (.compile ⟨.unexpectedCloser ']' 5 s, []⟩) :=
    check_nil_of_rejection? (by simp [rejection?, hblank, himbalance])
  have hrejected : check (.text s) [] ≠ .ok s := by simp [hcheck]
  obtain ⟨cause, -, hreport, hpoints⟩ := check_pinpoints hblank hrejected
  obtain rfl : cause = .unexpectedCloser ']' 5 s := by simpa [hcheck, eq_comm] using hreport
  exact ⟨hblank, hrejected, hpoints⟩

end Stanza.Expression
