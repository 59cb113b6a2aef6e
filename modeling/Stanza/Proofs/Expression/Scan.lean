import Stanza.Expression
import Stanza.Proofs.Quoted

/-!
Texts that leave the open delimiters alone.

Outside strings, the scanner of expressions comes out of a `Neutral` text with the delimiters it
went in with. A text that balances by itself is neutral (`neutral_of_isBalanced`), because whether
a closer fits depends on nothing below the delimiters that the text has opened (`scan_append`). So
are texts without delimiters (`neutral_of_plain`) and quoted strings (`neutral_quote`): inside
quotes an escaped text is passed over up to its end (`scan_escape_append`).
-/

namespace Stanza.Expression

/-- The innermost open delimiter is no string. -/
def InCode (stack : List Delimiter) : Prop := stack.head? ≠ some .string

/-- Whether a character opens or closes something outside strings. -/
def isDelimiter (c : Char) : Bool :=
  c = '"' || (Delimiter.ofOpener? c).isSome || (Delimiter.ofCloser? c).isSome

/-- Outside strings, a text leaves the open delimiters as they were. -/
def Neutral (text : List Char) : Prop :=
  ∀ offset stack rest, InCode stack →
    scan offset stack (text ++ rest) = scan (offset + text.length) stack rest

variable {stack : List Delimiter} {c : Char} {d : Delimiter}

theorem inCode_nil : InCode [] := by simp [InCode]

theorem inCode_cons (h : d ≠ .string) (stack : List Delimiter) : InCode (d :: stack) := by
  simpa [InCode] using h

theorem inCode_of_forall_ne (h : ∀ below, stack = .string :: below → False) : InCode stack := by
  cases stack with
  | nil => exact inCode_nil
  | cons d stack => exact inCode_cons (fun hd => h stack (hd ▸ rfl)) stack

theorem InCode.append {below : List Delimiter} (h : InCode stack) (hbelow : InCode below) :
    InCode (stack ++ below) := by
  cases stack with
  | nil => exact hbelow
  | cons d stack => exact h

/-! ### Single steps -/

theorem ne_quote_of_ofOpener? (h : Delimiter.ofOpener? c = some d) : c ≠ '"' := by
  rintro rfl
  simp [Delimiter.ofOpener?] at h

theorem ne_string_of_ofOpener? (h : Delimiter.ofOpener? c = some d) : d ≠ .string := by
  rintro rfl
  unfold Delimiter.ofOpener? at h
  split at h <;> simp at h

theorem ofOpener?_eq_none_of_ofCloser? (h : Delimiter.ofCloser? c = some d) :
    Delimiter.ofOpener? c = none ∧ c ≠ '"' ∧ d ≠ .string := by
  unfold Delimiter.ofCloser? at h
  split at h <;> simp_all [Delimiter.ofOpener?] <;> simp [← h]

/-- What one character does outside strings. -/
theorem scan_code (stack : List Delimiter) (offset : Nat) (c : Char) (rest : List Char) :
    InCode stack → scan offset stack (c :: rest) =
      if c = '"' then scan (offset + 1) (.string :: stack) rest
      else match Delimiter.ofOpener? c, Delimiter.ofCloser? c with
        | some opened, _ => scan (offset + 1) (opened :: stack) rest
        | none, none => scan (offset + 1) stack rest
        | none, some closed =>
            match stack with
            | top :: below =>
                if top = closed then scan (offset + 1) below rest
                else .error (.unexpected c offset)
            | [] => .error (.unexpected c offset) := by
  intro hstack
  have hnot : ∀ below, stack ≠ .string :: below := by
    rintro below rfl
    simp [InCode] at hstack
  rw [scan]
  all_goals first | rfl | simp [hnot]

/-- Outside strings, a character that is no delimiter is passed over. -/
theorem scan_plain (h : isDelimiter c = false) (hstack : InCode stack) (offset : Nat)
    (rest : List Char) : scan offset stack (c :: rest) = scan (offset + 1) stack rest := by
  obtain ⟨⟨hquote, hopener⟩, hcloser⟩ :
      (c ≠ '"' ∧ Delimiter.ofOpener? c = none) ∧ Delimiter.ofCloser? c = none := by
    simpa [isDelimiter] using h
  rw [scan_code stack offset c rest hstack, if_neg hquote, hopener, hcloser]

theorem scan_quote (hstack : InCode stack) (offset : Nat) (rest : List Char) :
    scan offset stack ('"' :: rest) = scan (offset + 1) (.string :: stack) rest := by
  rw [scan_code stack offset _ rest hstack, if_pos rfl]

theorem scan_opener (h : Delimiter.ofOpener? c = some d) (hstack : InCode stack) (offset : Nat)
    (rest : List Char) :
    scan offset stack (c :: rest) = scan (offset + 1) (d :: stack) rest := by
  rw [scan_code stack offset c rest hstack, if_neg (ne_quote_of_ofOpener? h), h]

theorem scan_closer (h : Delimiter.ofCloser? c = some d) (stack : List Delimiter) (offset : Nat)
    (rest : List Char) :
    scan offset (d :: stack) (c :: rest) = scan (offset + 1) stack rest := by
  obtain ⟨hopener, hquote, hstring⟩ := ofOpener?_eq_none_of_ofCloser? h
  rw [scan_code (d :: stack) offset c rest (inCode_cons hstring stack), if_neg hquote, hopener, h]
  exact if_pos rfl

theorem scan_endQuote (stack : List Delimiter) (offset : Nat) (rest : List Char) :
    scan offset (.string :: stack) ('"' :: rest) = scan (offset + 1) stack rest := rfl

/-- In a string, a character that is passed over: no quote, no backslash, and no sign of what comes
next. -/
theorem scan_char {rest : List Char} (hquote : c ≠ '"') (hslash : c ≠ '\\')
    (hsign : Text.Quoted.Apart [c] rest) (offset : Nat) (stack : List Delimiter) :
    scan offset (.string :: stack) (c :: rest) = scan (offset + 1) (.string :: stack) rest := by
  have hs := hsign c rfl
  rw [scan.eq_def]
  split <;> simp_all [Text.Quoted.isSign]

/-! ### Texts that balance by themselves -/

/-- A sign in a string keeps apart from whatever comes behind the text, if the string ends in it. -/
theorem apart_of_scan {offset : Nat} {final : List Delimiter} {text : List Char}
    (h : scan offset (.string :: stack) text = .ok final) (hfinal : InCode final)
    (hsplice : Text.Quoted.isSign c → text.head? ≠ some '{' ∧ text.take 2 ≠ [c, '{'])
    (rest : List Char) : Text.Quoted.Apart [c] (text ++ rest) := by
  intro e he hsign
  obtain rfl : c = e := by simpa using he
  obtain ⟨hbrace, hdoubled⟩ := hsplice hsign
  match text with
  | [] =>
    obtain rfl : .string :: stack = final := by simpa [scan] using h
    exact absurd hfinal (by simp [InCode])
  | [x] =>
    refine ⟨by simpa using hbrace, fun htake => ?_⟩
    -- one more sign does not end the string either
    obtain rfl : x = c := by simpa using (List.cons.inj htake).1
    obtain rfl : .string :: stack = final := by
      rcases Text.Quoted.isSign_iff.mp hsign with rfl | rfl <;> simpa [scan] using h
    exact absurd hfinal (by simp [InCode])
  | x :: y :: more => exact ⟨by simpa using hbrace, by simpa using hdoubled⟩

/-- What a text opens and closes does not depend on where it stands, on what is open already, nor
on what comes next, as long as it ends outside strings. -/
theorem scan_append {offset : Nat} {final below : List Delimiter} {text : List Char}
    (h : scan offset stack text = .ok final) (hfinal : InCode final) (hbelow : InCode below)
    (start : Nat) (rest : List Char) :
    scan start (stack ++ below) (text ++ rest) =
      scan (start + text.length) (final ++ below) rest := by
  fun_induction scan offset stack text generalizing start
  case case1 => simp_all
  case case2 =>
    obtain rfl := Except.ok.inj h
    exact absurd hfinal (by simp [InCode])
  case case3 ih | case4 ih | case5 ih | case6 ih | case7 ih =>
    simp only [List.cons_append, scan] at ih ⊢
    rw [ih h]
    congr 1
    simp only [List.length_cons]
    omega
  case case8 ih =>
    rw [List.cons_append, List.cons_append, scan_endQuote, ih h, List.length_cons, Nat.add_assoc,
      Nat.add_comm 1]
  case case9 c text hlast hslash _ _ _ _ hquote ih =>
    have hslash : c ≠ '\\' := by
      rintro rfl
      cases text with
      | nil => exact hlast rfl rfl
      | cons x more => exact hslash x more rfl rfl
    have hsplice : Text.Quoted.isSign c → text.head? ≠ some '{' ∧ text.take 2 ≠ [c, '{'] := by
      intro hsign
      rcases Text.Quoted.isSign_iff.mp hsign with rfl | rfl <;>
        rcases text with _ | ⟨x, _ | ⟨y, more⟩⟩ <;> simp_all
    rw [List.cons_append, List.cons_append,
      scan_char hquote hslash (apart_of_scan h hfinal hsplice rest), ← List.cons_append, ih h,
      List.length_cons, Nat.add_assoc, Nat.add_comm 1]
  case case10 hcode _ _ _ _ _ _ ih =>
    have hstack := inCode_of_forall_ne hcode
    rw [List.cons_append, scan_quote (hstack.append hbelow), ← List.cons_append, ih h,
      List.length_cons, Nat.add_assoc, Nat.add_comm 1]
  case case11 _ _ _ _ _ _ hcode _ opened hopener ih =>
    have hstack := inCode_of_forall_ne hcode
    rw [List.cons_append, scan_opener hopener (hstack.append hbelow), ← List.cons_append, ih h,
      List.length_cons, Nat.add_assoc, Nat.add_comm 1]
  case case12 c text _ _ _ _ _ _ hcode hquote hcloser hopener ih =>
    have hstack := inCode_of_forall_ne hcode
    have hplain : isDelimiter c = false := by simp [isDelimiter, hquote, hcloser, hopener]
    rw [List.cons_append, scan_plain hplain (hstack.append hbelow), ih h, List.length_cons,
      Nat.add_assoc, Nat.add_comm 1]
  case case13 ih =>
    rw [List.cons_append, List.cons_append, scan_closer ‹_›, ih h, List.length_cons,
      Nat.add_assoc, Nat.add_comm 1]
  case case14 | case15 => exact absurd h (by simp)

/-- A text balances when nothing is open at its end. -/
theorem isBalanced_iff_scan {text : List Char} : isBalanced text ↔ scan 0 [] text = .ok [] := by
  unfold isBalanced imbalance?
  split <;> simp_all

/-- A text that balances is neutral. -/
theorem neutral_of_isBalanced {text : List Char} (h : isBalanced text) : Neutral text := by
  intro offset stack rest hstack
  simpa using scan_append (isBalanced_iff_scan.mp h) inCode_nil hstack offset rest

/-! ### Neutral texts -/

theorem neutral_nil : Neutral [] := by
  intro offset stack rest _
  rfl

theorem Neutral.append {text more : List Char} (h : Neutral text) (hmore : Neutral more) :
    Neutral (text ++ more) := by
  intro offset stack rest hstack
  rw [List.append_assoc, h _ _ _ hstack, hmore _ _ _ hstack, List.length_append, Nat.add_assoc]

/-- A text without delimiters is neutral. -/
theorem neutral_of_plain {text : List Char} (h : ∀ c ∈ text, isDelimiter c = false) :
    Neutral text := by
  induction text with
  | nil => exact neutral_nil
  | cons c text ih =>
    obtain ⟨hc, htext⟩ := List.forall_mem_cons.mp h
    intro offset stack rest hstack
    rw [List.cons_append, scan_plain hc hstack, ih htext _ _ _ hstack, List.length_cons,
      Nat.add_assoc, Nat.add_comm 1]

/-- A neutral text between two brackets that match is neutral. -/
theorem Neutral.enclosed {opener closer : Char} {text : List Char} (h : Neutral text)
    (hopener : Delimiter.ofOpener? opener = some d)
    (hcloser : Delimiter.ofCloser? closer = some d) :
    Neutral (opener :: text ++ [closer]) := by
  intro offset stack rest hstack
  have hinside := inCode_cons (ne_string_of_ofOpener? hopener) stack
  rw [List.cons_append, List.cons_append, scan_opener hopener hstack, List.append_assoc,
    h _ _ _ hinside, List.singleton_append, scan_closer hcloser]
  congr 1
  simp
  omega

/-! ### Inside strings -/

/-- In a string, characters that are no quotes, backslashes or signs are passed over. -/
theorem scan_inert {text : List Char}
    (h : ∀ c ∈ text, c ≠ '"' ∧ c ≠ '\\' ∧ Text.Quoted.isSign c = false) (offset : Nat)
    (stack : List Delimiter) (rest : List Char) :
    scan offset (.string :: stack) (text ++ rest) =
      scan (offset + text.length) (.string :: stack) rest := by
  induction text generalizing offset with
  | nil => rfl
  | cons c text ih =>
    obtain ⟨⟨hquote, hslash, hsign⟩, htext⟩ := List.forall_mem_cons.mp h
    have hapart : Text.Quoted.Apart [c] (text ++ rest) := Text.Quoted.apart_of_not_isSign (by simpa)
    rw [List.cons_append, scan_char hquote hslash hapart, ih htext, List.length_cons,
      Nat.add_assoc, Nat.add_comm 1]

/-- The digits of a code are no quotes, backslashes or signs. -/
theorem inert_hex {n : Nat} (hn : n < 128) :
    ∀ d ∈ Text.hex 4 n, d ≠ '"' ∧ d ≠ '\\' ∧ Text.Quoted.isSign d = false := by
  have hdigits : "0123456789abcdef".toList.all fun d =>
      d ≠ '"' && d ≠ '\\' && !Text.Quoted.isSign d := by decide
  intro d hd
  simpa [and_assoc] using
    List.all_eq_true.mp hdigits d (Text.Quoted.mem_digits_of_mem_hex hn hd)

/-- In a string, the escape of a character is passed over. -/
theorem scan_escapeChar {rest : List Char} (h : Text.Quoted.Apart [c] rest) (offset : Nat)
    (stack : List Delimiter) :
    scan offset (.string :: stack) (Text.Quoted.escapeChar c ++ rest) =
      scan (offset + (Text.Quoted.escapeChar c).length) (.string :: stack) rest := by
  rcases Text.Quoted.escapeChar_cases c with
    ⟨letter, -, hc⟩ | ⟨hcode, hc⟩ | ⟨hquote, hslash, -, hc⟩
  · rw [hc]
    simp [scan]
  · rw [hc]
    have hdigits := scan_inert (inert_hex hcode) (offset + 2) stack rest
    simp only [List.cons_append, scan, hdigits, List.length_cons]
    congr 1
    omega
  · rw [hc]
    exact scan_char hquote hslash h offset stack

/-- In a string an escaped text is passed over, whatever comes next, as long as the two keep
apart. -/
theorem scan_escape_append {text rest : List Char} (h : Text.Quoted.Apart text rest)
    (offset : Nat) (stack : List Delimiter) :
    scan offset (.string :: stack) (Text.Quoted.escape text ++ rest) =
      scan (offset + (Text.Quoted.escape text).length) (.string :: stack) rest := by
  refine Text.Quoted.Apart.induction (motive := fun text => ∀ offset,
    scan offset (.string :: stack) (Text.Quoted.escape text ++ rest) =
      scan (offset + (Text.Quoted.escape text).length) (.string :: stack) rest) ?_ ?_ ?_ h offset
  · exact fun _ => rfl
  · intro c text hsign ih offset
    rw [Text.Quoted.escape_sign_brace hsign]
    have hstep : scan offset (.string :: stack) (c :: c :: '{' :: Text.Quoted.escape text ++ rest) =
        scan (offset + 3) (.string :: stack) (Text.Quoted.escape text ++ rest) := by
      rcases Text.Quoted.isSign_iff.mp hsign with rfl | rfl <;> simp [scan]
    rw [hstep, ih]
    congr 1
    simp only [List.length_cons]
    omega
  · intro c text hapart hescape ih offset
    rw [hescape, List.append_assoc, scan_escapeChar hapart, ih, List.length_append, Nat.add_assoc]

/-- A text in quotes is neutral. -/
theorem neutral_quote (text : List Char) : Neutral (Text.Quoted.quote text) := by
  intro offset stack rest hstack
  rw [Text.Quoted.quote, List.cons_append, List.cons_append, scan_quote hstack, List.append_assoc,
    List.singleton_append, scan_escape_append (Text.Quoted.apart_quote text _), scan_endQuote]
  congr 1
  simp
  omega

/-- In a string, an interpolation of a neutral expression is passed over. -/
theorem scan_interpolation {sign : Char} {expression : List Char}
    (hsign : Text.Quoted.isSign sign) (h : Neutral expression) (offset : Nat)
    (stack : List Delimiter) (rest : List Char) :
    scan offset (.string :: stack) (sign :: '\x7b' :: expression ++ '\x7d' :: rest) =
      scan (offset + (expression.length + 3)) (.string :: stack) rest := by
  have hstep : scan offset (.string :: stack) (sign :: '\x7b' :: expression ++ '\x7d' :: rest) =
      scan (offset + 2) (.brace :: .string :: stack) (expression ++ '\x7d' :: rest) := by
    rcases Text.Quoted.isSign_iff.mp hsign with rfl | rfl <;> simp [scan]
  rw [hstep, h _ _ _ (inCode_cons (by simp) _), scan_closer (d := .brace) rfl]
  congr 1
  omega

/-- In a string, a splice of a neutral expression is passed over. -/
theorem scan_splice {expression : List Char} (h : Neutral expression) (offset : Nat)
    (stack : List Delimiter) (rest : List Char) :
    scan offset (.string :: stack) ('$' :: '\x7b' :: expression ++ '\x7d' :: rest) =
      scan (offset + (expression.length + 3)) (.string :: stack) rest :=
  scan_interpolation rfl h offset stack rest

end Stanza.Expression
