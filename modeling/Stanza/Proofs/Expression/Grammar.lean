import Stanza.Proofs.Expression.Scan
import Stanza.Proofs.Layout.Shape

/-!
The language of well-formed expressions.

`Code` and `Literal` are a grammar: code is made of characters that stand for themselves, of code in
brackets and of strings, and a string is read from left to right as escapes, signs doubled before a
brace, interpolations of code, and characters at which none of these begins. The check of
expressions accepts exactly the code that is not blank (`Expression.check_eq_ok_iff`).

What the scanner still has to find when some delimiters are open is `Closes`: code up to the closer
of the last of them, then what closes the others.

* `neutral_of_code`, `scan_of_literal`: the scanner passes over what the grammar derives.
* `closes_of_scan`: a text at whose end nothing stays open is derived.
-/

namespace Stanza.Expression

/-! ### The grammar -/

/-- The brackets, each with the one that closes it. -/
def brackets : List (Char × Char) := [('(', ')'), ('[', ']'), ('\x7b', '\x7d')]

/-- A character that stands for itself outside strings: no quote and no bracket. -/
def IsPlain (c : Char) : Prop := c ≠ '"' ∧ ∀ pair ∈ brackets, c ≠ pair.1 ∧ c ≠ pair.2

/-- In a string, an escape, a doubled sign before a brace or an interpolation begins with a text. -/
def BeginsUnit (text : List Char) : Prop :=
  text.head? = some '\\' ∨
    ∃ sign ∈ ['$', '%'], [sign, sign, '\x7b'] <+: text ∨ [sign, '\x7b'] <+: text

mutual

/-- Code: delimiters in it are closed in turn. -/
inductive Code : List Char → Prop where
  | nil : Code []
  | plain {c : Char} {rest : List Char} : IsPlain c → Code rest → Code (c :: rest)
  | bracketed {opener closer : Char} {inside rest : List Char} :
      (opener, closer) ∈ brackets → Code inside → Code rest →
      Code (opener :: inside ++ closer :: rest)
  | string {content rest : List Char} :
      Literal content → Code rest → Code ('"' :: content ++ rest)

/-- What follows the first quote of a string, with the quote that ends it. -/
inductive Literal : List Char → Prop where
  | quote : Literal ['"']
  | escape (c : Char) {rest : List Char} : Literal rest → Literal ('\\' :: c :: rest)
  | doubled {sign : Char} {rest : List Char} :
      sign ∈ ['$', '%'] → Literal rest → Literal (sign :: sign :: '\x7b' :: rest)
  | splice {sign : Char} {inside rest : List Char} :
      sign ∈ ['$', '%'] → Code inside → Literal rest →
      Literal (sign :: '\x7b' :: inside ++ '\x7d' :: rest)
  | char {c : Char} {rest : List Char} :
      c ≠ '"' → ¬BeginsUnit (c :: rest) → Literal rest → Literal (c :: rest)

end

/-! ### Brackets and characters -/

variable {c opener closer : Char}

theorem exists_of_mem_brackets (h : (opener, closer) ∈ brackets) :
    ∃ d, Delimiter.ofOpener? opener = some d ∧ Delimiter.ofCloser? closer = some d := by
  simp only [brackets, List.mem_cons, List.not_mem_nil, or_false, Prod.mk.injEq] at h
  rcases h with ⟨rfl, rfl⟩ | ⟨rfl, rfl⟩ | ⟨rfl, rfl⟩
  · exact ⟨.paren, rfl, rfl⟩
  · exact ⟨.square, rfl, rfl⟩
  · exact ⟨.brace, rfl, rfl⟩

theorem mem_brackets {d : Delimiter} (hopener : Delimiter.ofOpener? opener = some d) :
    (opener, d.closer) ∈ brackets := by
  unfold Delimiter.ofOpener? at hopener
  split at hopener
  all_goals cases hopener
  all_goals simp [brackets, Delimiter.closer]

theorem eq_closer {d : Delimiter} (hcloser : Delimiter.ofCloser? c = some d) : c = d.closer := by
  unfold Delimiter.ofCloser? at hcloser
  split at hcloser
  all_goals cases hcloser
  all_goals rfl

theorem isPlain_iff : IsPlain c ↔ isDelimiter c = false := by
  unfold IsPlain isDelimiter Delimiter.ofOpener? Delimiter.ofCloser?
  split <;> split <;> simp_all [brackets]

theorem mem_signs_iff {sign : Char} : sign ∈ ['$', '%'] ↔ sign = '$' ∨ sign = '%' := by simp

theorem isSign_iff_mem {sign : Char} : Text.Quoted.isSign sign ↔ sign ∈ ['$', '%'] :=
  Text.Quoted.isSign_iff.trans mem_signs_iff.symm

/-- A character at which nothing longer begins is no backslash, and keeps apart from what comes
next. -/
theorem apart_of_not_beginsUnit {rest : List Char} (h : ¬BeginsUnit (c :: rest)) :
    c ≠ '\\' ∧ Text.Quoted.Apart [c] rest := by
  obtain ⟨hslash, hsigns⟩ := not_or.mp h
  refine ⟨by simpa using hslash, ?_⟩
  intro e he hsign
  obtain rfl : c = e := by simpa using he
  have hunits : ¬([c, c, '\x7b'] <+: c :: rest ∨ [c, '\x7b'] <+: c :: rest) :=
    fun hunit => hsigns ⟨c, isSign_iff_mem.mp hsign, hunit⟩
  obtain ⟨hdoubled, hsplice⟩ := not_or.mp hunits
  constructor
  · intro hhead
    obtain ⟨tail, rfl⟩ := List.head?_eq_some_iff.mp hhead
    exact hsplice ⟨tail, rfl⟩
  · intro htake
    exact hdoubled ⟨rest.drop 2, by rw [← List.take_append_drop 2 rest, htake]; simp⟩

/-- A string ends in a quote, so what comes behind it is no part of what begins in it. -/
theorem Literal.apart {content : List Char} (h : Literal content)
    (hapart : Text.Quoted.Apart [c] content) (rest : List Char) :
    Text.Quoted.Apart [c] (content ++ rest) := by
  cases h with
  | quote => exact Text.Quoted.apart_quote [c] rest
  | escape d _ => exact hapart
  | doubled _ _ => exact hapart
  | splice _ _ _ => exact hapart
  | char hquote _ hcontent =>
    cases hcontent
    all_goals exact hapart

/-! ### What is derived is passed over -/

mutual

/-- Code is passed over. -/
theorem neutral_of_code {text : List Char} (h : Code text) : Neutral text := by
  cases h with
  | nil => exact neutral_nil
  | @plain c rest hplain hrest =>
    have hchar : Neutral [c] :=
      neutral_of_plain (List.forall_mem_singleton.mpr (isPlain_iff.mp hplain))
    exact hchar.append (neutral_of_code hrest)
  | @bracketed opener closer inside rest hpair hinside hrest =>
    obtain ⟨d, hopener, hcloser⟩ := exists_of_mem_brackets hpair
    have henclosed := (neutral_of_code hinside).enclosed hopener hcloser
    simpa using henclosed.append (neutral_of_code hrest)
  | @string content rest hcontent hrest =>
    have hstring : Neutral ('"' :: content) := by
      intro offset stack more hstack
      rw [List.cons_append, scan_quote hstack, scan_of_literal hcontent _ stack more hstack,
        List.length_cons, Nat.add_assoc, Nat.add_comm 1]
    exact hstring.append (neutral_of_code hrest)
termination_by text.length
decreasing_by all_goals simp only [List.length_append, List.length_cons]; omega

/-- A string is passed over up to its end. -/
theorem scan_of_literal {content : List Char} (h : Literal content) (offset : Nat)
    (stack : List Delimiter) (more : List Char) (hstack : InCode stack) :
    scan offset (.string :: stack) (content ++ more) =
      scan (offset + content.length) stack more := by
  cases h with
  | quote => rfl
  | @escape c rest hrest =>
    rw [List.cons_append, List.cons_append, scan, scan_of_literal hrest _ stack more hstack]
    congr 1
    simp only [List.length_cons]
    omega
  | @doubled sign rest hsign hrest =>
    have hstep : scan offset (.string :: stack) (sign :: sign :: '\x7b' :: (rest ++ more)) =
        scan (offset + 3) (.string :: stack) (rest ++ more) := by
      rcases mem_signs_iff.mp hsign with rfl | rfl <;> simp [scan]
    rw [List.cons_append, List.cons_append, List.cons_append, hstep,
      scan_of_literal hrest _ stack more hstack]
    congr 1
    simp only [List.length_cons]
    omega
  | @splice sign inside rest hsign hinside hrest =>
    have hsplice := scan_interpolation (isSign_iff_mem.mpr hsign) (neutral_of_code hinside) offset
      stack (rest ++ more)
    rw [List.append_assoc, @List.cons_append _ _ rest, hsplice,
      scan_of_literal hrest _ stack more hstack]
    congr 1
    simp only [List.length_append, List.length_cons]
    omega
  | @char c rest hquote hunit hrest =>
    obtain ⟨hslash, hapart⟩ := apart_of_not_beginsUnit hunit
    rw [List.cons_append, scan_char hquote hslash (hrest.apart hapart more),
      scan_of_literal hrest _ stack more hstack]
    congr 1
    simp only [List.length_cons]
    omega
termination_by content.length
decreasing_by all_goals simp only [List.length_append, List.length_cons]; omega

end

/-! ### What leaves nothing open is derived -/

variable {stack : List Delimiter}

/-- What a text has to be for the given delimiters to be closed at its end, the first of them
first. -/
def Closes : List Delimiter → List Char → Prop
  | [], text => Code text
  | .string :: stack, text => ∃ content rest, text = content ++ rest ∧ Literal content ∧
      Closes stack rest
  | d :: stack, text => ∃ inside rest, text = inside ++ d.closer :: rest ∧ Code inside ∧
      Closes stack rest

theorem closes_cons {d : Delimiter} (h : d ≠ .string) (stack : List Delimiter) (text : List Char) :
    Closes (d :: stack) text ↔ ∃ inside rest, text = inside ++ d.closer :: rest ∧ Code inside ∧
      Closes stack rest := by
  cases d with
  | string => exact absurd rfl h
  | _ => rfl

/-- Outside strings, what can stand in front of code can stand in front of what is left. -/
theorem Closes.lead {text : List Char} (front : List Char) (hstack : InCode stack)
    (hfront : ∀ code, Code code → Code (front ++ code)) (h : Closes stack text) :
    Closes stack (front ++ text) := by
  cases stack with
  | nil => exact hfront text h
  | cons d stack =>
    have hd : d ≠ .string := by simpa [InCode] using hstack
    obtain ⟨inside, rest, rfl, hinside, hrest⟩ := (closes_cons hd stack text).mp h
    exact (closes_cons hd stack _).mpr
      ⟨front ++ inside, rest, by simp, hfront inside hinside, hrest⟩

/-- In a string, what can stand in front of its rest can stand in front of what is left. -/
theorem Closes.leadString {text : List Char} (front : List Char)
    (hfront : ∀ content rest, text = content ++ rest → Literal content → Literal (front ++ content))
    (h : Closes (.string :: stack) text) : Closes (.string :: stack) (front ++ text) := by
  obtain ⟨content, rest, rfl, hcontent, hrest⟩ := h
  exact ⟨front ++ content, rest, by simp, hfront content rest rfl hcontent, hrest⟩

/-- What begins with a text begins with the text and more. -/
theorem BeginsUnit.append {text : List Char} (h : BeginsUnit text) (more : List Char) :
    BeginsUnit (text ++ more) := by
  rcases h with hslash | ⟨sign, hsign, hdoubled | hsplice⟩
  · obtain ⟨rest, rfl⟩ := List.head?_eq_some_iff.mp hslash
    exact .inl rfl
  · exact .inr ⟨sign, hsign, .inl (hdoubled.trans (List.prefix_append text more))⟩
  · exact .inr ⟨sign, hsign, .inr (hsplice.trans (List.prefix_append text more))⟩

/-- The scanner takes a character of a string by itself only where nothing longer begins. -/
theorem not_beginsUnit {rest : List Char} (hlast : c = '\\' → rest = [] → False)
    (hslash : ∀ d more, c = '\\' → rest = d :: more → False)
    (hdollars : ∀ more, c = '$' → rest = '$' :: '\x7b' :: more → False)
    (hpercents : ∀ more, c = '%' → rest = '%' :: '\x7b' :: more → False)
    (hdollar : ∀ more, c = '$' → rest = '\x7b' :: more → False)
    (hpercent : ∀ more, c = '%' → rest = '\x7b' :: more → False) : ¬BeginsUnit (c :: rest) := by
  rintro (hhead | ⟨sign, hsign, ⟨tail, htail⟩ | ⟨tail, htail⟩⟩)
  · obtain rfl : c = '\\' := by simpa using hhead
    cases rest with
    | nil => exact hlast rfl rfl
    | cons d rest => exact hslash d rest rfl rfl
  · obtain ⟨rfl, rfl⟩ := List.cons.inj htail
    rcases mem_signs_iff.mp hsign with rfl | rfl
    · exact hdollars tail rfl rfl
    · exact hpercents tail rfl rfl
  · obtain ⟨rfl, rfl⟩ := List.cons.inj htail
    rcases mem_signs_iff.mp hsign with rfl | rfl
    · exact hdollar tail rfl rfl
    · exact hpercent tail rfl rfl

/-- **The scanner finds a derivation.** A text at whose end nothing is open closes what was open
before it. -/
theorem closes_of_scan {offset : Nat} {text : List Char} (h : scan offset stack text = .ok []) :
    Closes stack text := by
  fun_induction scan offset stack text
  case case1 =>
    obtain rfl := Except.ok.inj h
    exact .nil
  case case2 => cases h
  case case3 c rest ih =>
    exact (ih h).leadString ['\\', c] fun _ _ _ hcontent => .escape c hcontent
  case case4 rest ih =>
    exact (ih h).leadString ['$', '$', '\x7b'] fun _ _ _ hcontent => .doubled (by simp) hcontent
  case case5 rest ih =>
    exact (ih h).leadString ['%', '%', '\x7b'] fun _ _ _ hcontent => .doubled (by simp) hcontent
  case case6 rest ih =>
    obtain ⟨inside, more, rfl, hinside, content, rest, rfl, hcontent, hrest⟩ := ih h
    exact ⟨'$' :: '\x7b' :: inside ++ '\x7d' :: content, rest, by simp [Delimiter.closer],
      .splice (by simp) hinside hcontent, hrest⟩
  case case7 rest ih =>
    obtain ⟨inside, more, rfl, hinside, content, rest, rfl, hcontent, hrest⟩ := ih h
    exact ⟨'%' :: '\x7b' :: inside ++ '\x7d' :: content, rest, by simp [Delimiter.closer],
      .splice (by simp) hinside hcontent, hrest⟩
  case case8 rest _ _ _ _ _ _ ih => exact ⟨['"'], rest, rfl, .quote, ih h⟩
  case case9 c rest hlast hslash hdollars hpercents hdollar hpercent hquote ih =>
    have hunit := not_beginsUnit hlast hslash hdollars hpercents hdollar hpercent
    refine (ih h).leadString [c] fun content more hsplit hcontent => ?_
    refine .char hquote (fun hbegins => hunit ?_) hcontent
    rw [hsplit]
    exact hbegins.append more
  case case10 hcode _ _ _ _ _ _ ih =>
    obtain ⟨content, rest, rfl, hcontent, hrest⟩ := ih h
    exact hrest.lead ('"' :: content) (inCode_of_forall_ne hcode)
      fun _ hcode => .string hcontent hcode
  case case11 c _ _ _ _ _ _ _ hcode _ opened hopener ih =>
    obtain ⟨inside, rest, rfl, hinside, hrest⟩ :=
      (closes_cons (ne_string_of_ofOpener? hopener) _ _).mp (ih h)
    have hlead := hrest.lead (c :: inside ++ [opened.closer]) (inCode_of_forall_ne hcode)
      fun code hcode => by simpa using Code.bracketed (mem_brackets hopener) hinside hcode
    simpa using hlead
  case case12 c rest _ _ _ _ _ _ hcode hquote hcloser hopener ih =>
    have hplain : isDelimiter c = false := by simp [isDelimiter, hquote, hcloser, hopener]
    exact (ih h).lead [c] (inCode_of_forall_ne hcode)
      fun _ hcode => .plain (isPlain_iff.mpr hplain) hcode
  case case13 hcloser ih =>
    obtain rfl := eq_closer hcloser
    have hbracket := (ofOpener?_eq_none_of_ofCloser? hcloser).2.2
    exact (closes_cons hbracket _ _).mpr ⟨[], _, rfl, .nil, ih h⟩
  case case14 | case15 => cases h

/-- A text is balanced when it is code. -/
theorem isBalanced_iff_code {text : List Char} : isBalanced text ↔ Code text := by
  rw [isBalanced_iff_scan]
  constructor
  · exact closes_of_scan
  · intro h
    simpa [scan] using neutral_of_code h 0 [] [] inCode_nil

/-- Of three signs before a brace the last two are taken together, so no splice is opened. -/
example : Code "\"$$$\x7b\"".toList := isBalanced_iff_code.mp (by decide)

/-! ### The check -/

theorem rejection?_eq_none_iff {s : String} :
    rejection? s = none ↔ Text.allBlank s.toList = false ∧ isBalanced s.toList := by
  unfold rejection? isBalanced
  cases Text.allBlank s.toList with
  | true => simp
  | false =>
    cases imbalance? s.toList with
    | none => simp
    | some imbalance =>
      cases imbalance with
      | unexpected closer offset => simp
      | unclosed delimiter => cases delimiter <;> simp

/-- What is turned down is malformed, and the wording quotes nothing but its text. -/
theorem kind?_of_rejection? {s : String} {cause : Cause} (h : rejection? s = some cause) :
    cause.kind? = some .expression ∧ cause.quotes = [] := by
  unfold rejection? at h
  split at h
  · obtain rfl := Option.some.inj h
    exact ⟨rfl, rfl⟩
  · split at h
    · cases h
    all_goals
      obtain rfl := Option.some.inj h
      exact ⟨rfl, rfl⟩

/-- What is turned down fails with the cause where it stands. -/
theorem check_of_rejection? {s : String} {cause : Cause} (h : rejection? s = some cause)
    (path : Path) : check (.text s) path = fail cause path := by
  simp [check, checkText, h]

/-- What is turned down fails by itself with just the cause. -/
theorem check_nil_of_rejection? {s : String} {cause : Cause} (h : rejection? s = some cause) :
    check (.text s) [] = .error (.compile ⟨cause, []⟩) := by
  rw [check_of_rejection? h, fail, (kind?_of_rejection? h).2]
  rfl

/-- **The language of expressions.** The check accepts a text exactly when it is not blank and the
grammar derives it as code, and gives it back; every other text is turned down as malformed. -/
theorem check_eq_ok_iff (s : String) (path : Path) :
    (check (.text s) path = .ok s ↔ Text.allBlank s.toList = false ∧ Code s.toList) ∧
      (check (.text s) path ≠ .ok s → ∃ cause : Cause, cause.kind? = some .expression ∧
        check (.text s) path = fail cause path ∧
        check (.text s) [] = .error (.compile ⟨cause, []⟩)) := by
  have haccepted : rejection? s = none ↔ Text.allBlank s.toList = false ∧ Code s.toList := by
    rw [rejection?_eq_none_iff, isBalanced_iff_code]
  rw [← haccepted]
  cases hrejection : rejection? s with
  | none => simp [check, checkText, hrejection]
  | some cause =>
    obtain ⟨hkind, hquotes⟩ := kind?_of_rejection? hrejection
    have hcheck (path : Path) : check (.text s) path = fail cause path := by
      simp [check, checkText, hrejection]
    refine ⟨?_, fun _ => ⟨cause, hkind, hcheck path, ?_⟩⟩
    · rw [hcheck]
      simp [fail_ne_ok]
    · rw [hcheck, fail, hquotes]
      rfl

end Stanza.Expression
