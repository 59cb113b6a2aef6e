import Stanza.Text.Quoted
import Stanza.Number.Numeral
import Mathlib.Data.List.Basic
import Mathlib.Tactic.SplitIfs

/-!
Reading quoted strings.

`Quoted.unquote` is the reader that a quoted string is written for: it goes from left to right,
undoes escapes, takes a doubled sign before a brace for the two characters, takes a splice of a
quoted dollar for the dollar, and any other splice for a reference. Its answer is a row of `Piece`s
and what stands behind the closing quote.

* `unquote_escape_append`: the text between the quotes reads back as the characters it stands for,
  whatever comes next, as long as the two are `Apart`.
* `unquote_splice`: a splice reads back as its expression.
* `escape_append`, `length_escape_append`: escaping in parts is escaping the whole unless a sign is
  cut off from its brace; then the whole is one character longer.
* `not_isControl_of_mem_escape`: control characters are written by letters or by their codes.
-/

namespace Stanza

/-- A piece of what a quoted string holds: a character, or the expression of a splice. -/
inductive Piece where
  | char (c : Char)
  | splice (expression : List Char)
  deriving DecidableEq, Repr, Inhabited

namespace Text.Quoted

/-- The character that stands behind a backslash for another one. -/
def unescape? : Char → Option Char
  | '"' => some '"'
  | '\\' => some '\\'
  | 'n' => some '\n'
  | 'r' => some '\r'
  | 't' => some '\t'
  | _ => none

/-- The character whose code is given in base sixteen. -/
def ofHex? (digits : List Char) : Option Char :=
  if digits.all fun c => (digit? c).isSome then some (Char.ofNat (digitsValue 16 digits)) else none

/-- Pieces in front of what is read next. -/
def after (pieces : List Piece) (found : Option (List Piece × List Char)) :
    Option (List Piece × List Char) :=
  found.map fun (more, rest) => (pieces ++ more, rest)

/-- Reads a quoted string from behind its opening quote on. The answer is what it holds and what
stands behind its closing quote; there is none when the string does not end. The first argument is
the expression of the splice that is being read, if one is, the last character first. -/
def unquote : Option (List Char) → List Char → Option (List Piece × List Char)
  | _, [] => none
  | none, '"' :: rest => some ([], rest)
  | none, '\\' :: 'u' :: a :: b :: c :: d :: rest =>
      match ofHex? [a, b, c, d] with
      | some char => after [.char char] (unquote none rest)
      | none => none
  | none, '\\' :: c :: rest =>
      match unescape? c with
      | some char => after [.char char] (unquote none rest)
      | none => none
  | none, '$' :: '$' :: '{' :: rest => after [.char '$', .char '{'] (unquote none rest)
  | none, '%' :: '%' :: '{' :: rest => after [.char '%', .char '{'] (unquote none rest)
  | none, '$' :: '{' :: '"' :: '$' :: '"' :: '}' :: rest => after [.char '$'] (unquote none rest)
  | none, '$' :: '{' :: rest => unquote (some []) rest
  | none, c :: rest => after [.char c] (unquote none rest)
  | some expression, c :: rest =>
      if c = '}' then after [.splice expression.reverse] (unquote none rest)
      else unquote (some (c :: expression)) rest
termination_by structural _ text => text

@[simp] theorem after_nil (found : Option (List Piece × List Char)) : after [] found = found := by
  cases found <;> rfl

@[simp] theorem after_after (pieces more : List Piece) (found : Option (List Piece × List Char)) :
    after pieces (after more found) = after (pieces ++ more) found := by
  cases found <;> simp [after]

@[simp] theorem after_some (pieces more : List Piece) (rest : List Char) :
    after pieces (some (more, rest)) = some (pieces ++ more, rest) := rfl

theorem after_eq_some_iff {pieces found' : List Piece} {rest : List Char}
    {found : Option (List Piece × List Char)} :
    after pieces found = some (found', rest) ↔
      ∃ more, found = some (more, rest) ∧ pieces ++ more = found' := by
  simp [after]

/-! ### Steps of the reader -/

section Steps

variable (rest : List Char)

theorem isSign_iff {c : Char} : isSign c = true ↔ c = '$' ∨ c = '%' := by
  simp [isSign]

theorem unquote_endQuote : unquote none ('"' :: rest) = some ([], rest) := rfl

theorem unquote_code {a b c d char : Char} (h : ofHex? [a, b, c, d] = some char) :
    unquote none ('\\' :: 'u' :: a :: b :: c :: d :: rest) =
      after [.char char] (unquote none rest) := by
  change (match ofHex? [a, b, c, d] with
    | some char => after [.char char] (unquote none rest)
    | none => none) = _
  rw [h]

theorem unquote_letter {letter c : Char} (h : unescape? letter = some c) :
    unquote none ('\\' :: letter :: rest) = after [.char c] (unquote none rest) := by
  unfold unescape? at h
  split at h
  case h_6 => exact absurd h nofun
  all_goals
    obtain rfl := Option.some.inj h
    rfl

/-- A doubled sign before a brace is the sign and the brace. -/
theorem unquote_doubled {c : Char} (h : isSign c) :
    unquote none (c :: c :: '{' :: rest) = after [.char c, .char '{'] (unquote none rest) := by
  rcases isSign_iff.mp h with rfl | rfl
  · rfl
  · rfl

/-- A splice of a quoted dollar is the dollar. -/
theorem unquote_quotedDollar :
    unquote none ('$' :: '{' :: '"' :: '$' :: '"' :: '}' :: rest) =
      after [.char '$'] (unquote none rest) := rfl

theorem unquote_openSplice {text : List Char} (h : text.head? ≠ some '"') :
    unquote none ('$' :: '{' :: text) = unquote (some []) text := by
  rw [unquote.eq_def]
  cases text with
  | nil => rfl
  | cons c text => simp_all

theorem unquote_closeSplice (before : List Char) :
    unquote (some before) ('}' :: rest) =
      after [.splice before.reverse] (unquote none rest) := rfl

theorem unquote_insideSplice {c : Char} (h : c ≠ '}') (before : List Char) :
    unquote (some before) (c :: rest) = unquote (some (c :: before)) rest := by
  rw [unquote, if_neg h]

end Steps

/-- What is left behind a quoted string is shorter than the text it was read from. -/
theorem length_lt_of_unquote {inside : Option (List Char)} {text rest : List Char}
    {pieces : List Piece} (h : unquote inside text = some (pieces, rest)) :
    rest.length < text.length := by
  fun_induction unquote inside text generalizing pieces rest <;>
    simp_all [after_eq_some_iff] <;> grind

/-! ### Escapes -/

/-- A text keeps apart from what comes next: a sign at its end neither opens a splice nor doubles
the sign of one. -/
def Apart (text rest : List Char) : Prop :=
  ∀ c, text.getLast? = some c → isSign c → rest.head? ≠ some '{' ∧ rest.take 2 ≠ [c, '{']

theorem apart_of_not_isSign {text rest : List Char}
    (h : ∀ c, text.getLast? = some c → isSign c = false) : Apart text rest := by
  intro c hc hsign
  simp [h c hc] at hsign

/-- Nothing has to be kept apart from a quote. -/
theorem apart_quote (text rest : List Char) : Apart text ('"' :: rest) := by
  intro c _ hsign
  refine ⟨by simp, ?_⟩
  rintro h
  simp only [List.take_succ_cons, List.cons.injEq] at h
  simp [← h.1, isSign] at hsign

/-- A text that does not end in a dollar keeps apart from a splice. -/
theorem apart_splice {text : List Char} (h : text.getLast? ≠ some '$') (rest : List Char) :
    Apart text ('$' :: '{' :: rest) := by
  intro c hc _
  refine ⟨by simp, ?_⟩
  rintro htake
  rw [show '$' = c by simpa using htake] at h
  exact h hc

theorem Apart.tail {c d : Char} {text rest : List Char} (h : Apart (c :: d :: text) rest) :
    Apart (d :: text) rest := by
  intro e he
  exact h e (by rwa [List.getLast?_cons_cons])

/-- The escape of a character is a backslash with a letter for it or with its code, or it is the
character. -/
theorem escapeChar_cases (c : Char) :
    (∃ letter, unescape? letter = some c ∧ escapeChar c = ['\\', letter]) ∨
      (c.toNat < 128 ∧ escapeChar c = '\\' :: 'u' :: hex 4 c.toNat) ∨
      (c ≠ '"' ∧ c ≠ '\\' ∧ ¬(c.toNat < 0x20 ∨ c.toNat = 0x7f) ∧ escapeChar c = [c]) := by
  unfold escapeChar
  split_ifs with hquote hslash hline hreturn htab hcontrol
  case pos => exact .inl ⟨'"', by rw [hquote]; rfl, rfl⟩
  case pos => exact .inl ⟨'\\', by rw [hslash]; rfl, rfl⟩
  case pos => exact .inl ⟨'n', by rw [hline]; rfl, rfl⟩
  case pos => exact .inl ⟨'r', by rw [hreturn]; rfl, rfl⟩
  case pos => exact .inl ⟨'t', by rw [htab]; rfl, rfl⟩
  case pos => exact .inr (.inl ⟨by omega, rfl⟩)
  case neg => exact .inr (.inr ⟨hquote, hslash, hcontrol, rfl⟩)

theorem escapeChar_of_isSign {c : Char} (h : isSign c) : escapeChar c = [c] := by
  rcases isSign_iff.mp h with rfl | rfl <;> rfl

/-- An ordinary character is read as itself. -/
theorem unquote_char {c : Char} {rest : List Char} (hquote : c ≠ '"') (hslash : c ≠ '\\')
    (hsign : Apart [c] rest) :
    unquote none (c :: rest) = after [.char c] (unquote none rest) := by
  have hs := hsign c rfl
  rw [unquote.eq_def]
  split <;> simp_all [isSign]

/-- Every code below 128 has four digits in base sixteen, and they read back. -/
theorem ofHex?_hex :
    ∀ n : Fin 128, (hex 4 n).length = 4 ∧ ofHex? (hex 4 n) = some (Char.ofNat n) := by
  decide +kernel

/-- The digits in base sixteen of a code below 128. -/
theorem mem_digits_of_mem_hex {n : Nat} (hn : n < 128) {c : Char} (hc : c ∈ hex 4 n) :
    c ∈ "0123456789abcdef".toList := by
  have hall : ∀ n : Fin 128, (hex 4 n).all fun c => "0123456789abcdef".toList.contains c := by
    decide +kernel
  simpa only [List.contains_iff_mem] using List.all_eq_true.mp (hall ⟨n, hn⟩) c hc

theorem unquote_hex {c : Char} (h : c.toNat < 128) (rest : List Char) :
    unquote none ('\\' :: 'u' :: hex 4 c.toNat ++ rest) = after [.char c] (unquote none rest) := by
  obtain ⟨hlength, hread⟩ := ofHex?_hex ⟨c.toNat, h⟩
  match hdigits : hex 4 c.toNat, hlength with
  | [a, b, d, e], _ =>
    simp only [hdigits, Char.ofNat_toNat] at hread
    exact unquote_code rest hread

/-- The escape of a character reads back as the character. -/
theorem unquote_escapeChar {c : Char} {rest : List Char} (hsign : Apart [c] rest) :
    unquote none (escapeChar c ++ rest) = after [.char c] (unquote none rest) := by
  rcases escapeChar_cases c with ⟨letter, hletter, hc⟩ | ⟨hcode, hc⟩ | ⟨hquote, hslash, -, hc⟩
  · rw [hc]
    exact unquote_letter rest hletter
  · rw [hc]
    exact unquote_hex hcode rest
  · rw [hc]
    exact unquote_char hquote hslash hsign

theorem escape_sign_brace {c : Char} (h : isSign c) (text : List Char) :
    escape (c :: '{' :: text) = c :: c :: '{' :: escape text := by
  have hbrace : escapeChar '{' = ['{'] := by decide
  simp [escape, h, hbrace, show isSign '{' = false from rfl]

theorem escape_cons {c : Char} {text : List Char} (h : isSign c → text.head? ≠ some '{') :
    escape (c :: text) = escapeChar c ++ escape text := by
  rw [escape, if_neg]
  simpa using h

/-- The escape of a character begins with a backslash or is the character. -/
theorem escapeChar_eq_or (c : Char) : escapeChar c = [c] ∨ ∃ tail, escapeChar c = '\\' :: tail := by
  rcases escapeChar_cases c with ⟨_, -, hc⟩ | ⟨-, hc⟩ | ⟨-, -, -, hc⟩
  · exact .inr ⟨_, hc⟩
  · exact .inr ⟨_, hc⟩
  · exact .inl hc

theorem head?_escape_ne {c : Char} (h : c ≠ '{') (text rest : List Char) :
    (escape (c :: text) ++ rest).head? ≠ some '{' := by
  rw [escape]
  split
  · simpa using h
  · rcases escapeChar_eq_or c with hc | ⟨tail, hc⟩ <;> simp [hc, h]

/-- A sign that no brace follows keeps apart from the escapes of the characters after it. -/
theorem Apart.escape {c : Char} {text rest : List Char} (h : Apart (c :: text) rest)
    (hbrace : text.head? ≠ some '{') : Apart [c] (Quoted.escape text ++ rest) := by
  cases text with
  | nil => exact h
  | cons d text =>
    intro e he hsign
    obtain rfl : c = e := by simpa using he
    have hd : d ≠ '{' := by simpa using hbrace
    refine ⟨head?_escape_ne hd text rest, fun htake => ?_⟩
    by_cases hpair : isSign d ∧ text.head? = some '{'
    · -- the escape begins with the doubled sign, so its second character is no brace
      obtain ⟨hsignd, hhead⟩ := hpair
      simp [Quoted.escape, hsignd, hhead] at htake
      exact hd htake.2
    · rw [escape_cons (by simpa using hpair)] at htake
      rcases escapeChar_eq_or d with hd' | ⟨tail, hd'⟩
      · rw [hd'] at htake
        have hdc : d = c := by simpa using (List.cons.inj htake).1
        subst hdc
        have hnext : (Quoted.escape text ++ rest).head? = some '{' := by
          cases hlist : Quoted.escape text ++ rest <;> simp_all
        cases text with
        | nil => exact (h d rfl hsign).1 (by simpa [Quoted.escape] using hnext)
        | cons x text => exact head?_escape_ne (by simp_all) text rest hnext
      · rw [hd'] at htake
        have : '\\' = c := by simpa using (List.cons.inj htake).1
        subst this
        simp [isSign] at hsign

/-- Induction along a text in the steps in which it is escaped: a sign with its brace, or one
character whose escape keeps apart from what is written next. -/
theorem Apart.induction {rest : List Char} {motive : List Char → Prop} (nil : motive [])
    (pair : ∀ c text, isSign c → motive text → motive (c :: '{' :: text))
    (single : ∀ c text, Apart [c] (Quoted.escape text ++ rest) →
      Quoted.escape (c :: text) = escapeChar c ++ Quoted.escape text → motive text →
        motive (c :: text))
    {text : List Char} (h : Apart text rest) : motive text := by
  match text with
  | [] => exact nil
  | c :: text =>
    have htail : Apart text rest := by
      cases text with
      | nil => exact fun d hd => by simp at hd
      | cons d text => exact h.tail
    by_cases hpair : isSign c ∧ text.head? = some '{'
    · obtain ⟨hsign, hhead⟩ := hpair
      obtain ⟨text, rfl⟩ : ∃ tail, text = '{' :: tail := by
        cases text <;> simp_all
      refine pair c text hsign (Apart.induction nil pair single ?_)
      cases text with
      | nil => exact fun d hd => by simp at hd
      | cons d text => exact htail.tail
    · refine single c text ?_ (escape_cons (by simpa using hpair))
        (Apart.induction nil pair single htail)
      by_cases hsign : isSign c
      · exact h.escape fun hhead => hpair ⟨hsign, hhead⟩
      · exact apart_of_not_isSign fun d hd => by
          obtain rfl : c = d := by simpa using hd
          simpa using hsign
termination_by text.length

/-- **Escaping reads back.** The text between the quotes stands for the characters it was made
from, whatever comes next, as long as the two keep apart. -/
theorem unquote_escape_append {text rest : List Char} (h : Apart text rest) :
    unquote none (escape text ++ rest) = after (text.map .char) (unquote none rest) := by
  refine Apart.induction (motive := fun text =>
    unquote none (escape text ++ rest) = after (text.map .char) (unquote none rest)) ?_ ?_ ?_ h
  · simp [escape]
  · intro c text hsign ih
    rw [escape_sign_brace hsign]
    rw [List.cons_append, List.cons_append, List.cons_append, unquote_doubled _ hsign, ih]
    simp
  · intro c text hapart hescape ih
    rw [hescape, List.append_assoc, unquote_escapeChar hapart, ih]
    simp

/-- A text in quotes reads back, and the string ends with its last character. -/
theorem unquote_quote (text rest : List Char) :
    unquote none (escape text ++ '"' :: rest) = some (text.map .char, rest) := by
  rw [unquote_escape_append (apart_quote text rest), unquote_endQuote]
  simp

/-! ### Splices -/

/-- The expression of a splice goes up to the first closing brace. -/
theorem unquote_inside {expression : List Char} (h : '}' ∉ expression) (before rest : List Char) :
    unquote (some before) (expression ++ '}' :: rest) =
      after [.splice (before.reverse ++ expression)] (unquote none rest) := by
  induction expression generalizing before with
  | nil => simp [unquote_closeSplice]
  | cons c expression ih =>
    have hc : c ≠ '}' := fun hc => h (hc ▸ List.mem_cons_self)
    have hrest : '}' ∉ expression := fun hmem => h (List.mem_cons_of_mem _ hmem)
    rw [List.cons_append, unquote_insideSplice _ hc, ih hrest]
    simp

/-- A splice whose expression begins with no quote reads back as its expression. -/
theorem unquote_splice {expression : List Char} (hclose : '}' ∉ expression)
    (hquote : expression.head? ≠ some '"') (rest : List Char) :
    unquote none ('$' :: '{' :: expression ++ '}' :: rest) =
      after [.splice expression] (unquote none rest) := by
  have hhead : (expression ++ '}' :: rest).head? ≠ some '"' := by
    cases expression with
    | nil => simp
    | cons c expression => simpa using hquote
  rw [List.cons_append, List.cons_append, unquote_openSplice hhead, unquote_inside hclose]
  simp

/-! ### Escaping in parts -/

/-- Escaping a text in two parts is escaping the whole, unless a sign is cut off from its brace. -/
theorem escape_append {text rest : List Char}
    (h : ∀ c, text.getLast? = some c → isSign c → rest.head? ≠ some '{') :
    escape (text ++ rest) = escape text ++ escape rest := by
  induction text with
  | nil => rfl
  | cons c text ih =>
    have htail : escape (text ++ rest) = escape text ++ escape rest := by
      refine ih fun d hd => h d ?_
      cases text <;> simp_all
    have hhead : isSign c → ((text ++ rest).head? = some '{' ↔ text.head? = some '{') := by
      intro hsign
      cases text with
      | nil => simpa using h c rfl hsign
      | cons d text => simp
    by_cases hsign : isSign c
    · simp only [List.cons_append, escape, hsign, htail, beq_iff_eq, hhead hsign, Bool.true_and]
      split <;> simp
    · simp [escape, hsign, htail]

/-- Where a sign is cut off from its brace, escaping the whole gives one character more. -/
theorem length_escape_append {c : Char} (hsign : isSign c) (text rest : List Char) :
    (escape (text ++ c :: '{' :: rest)).length =
      (escape (text ++ [c])).length + (escape ('{' :: rest)).length + 1 := by
  have hbefore : ∀ d, text.getLast? = some d → isSign d → (c :: '{' :: rest).head? ≠ some '{' := by
    rintro d - - hd
    rw [List.head?_cons, Option.some.injEq] at hd
    simp [hd, isSign] at hsign
  have hbefore' : ∀ d, text.getLast? = some d → isSign d → [c].head? ≠ some '{' := by
    simpa using hbefore
  have hbrace : escape ('{' :: rest) = '{' :: escape rest := by
    rw [escape_cons (by simp [isSign])]
    rfl
  rw [escape_append hbefore, escape_append hbefore', escape_sign_brace hsign, hbrace,
    escape_cons (by simp : isSign c → [].head? ≠ some '{'), escapeChar_of_isSign hsign]
  simp [escape]
  omega

theorem escape_singleton (c : Char) : escape [c] = escapeChar c := by
  simp [escape]

/-- The escape of a character ends in a dollar only if the character is one. -/
theorem getLast?_escapeChar {c : Char} (h : (escapeChar c).getLast? = some '$') : c = '$' := by
  rcases escapeChar_cases c with ⟨letter, hletter, hc⟩ | ⟨hcode, hc⟩ | ⟨-, -, -, hc⟩
  · rw [hc] at h
    obtain rfl : letter = '$' := by simpa using h
    exact absurd hletter nofun
  · rw [hc] at h
    have hdollar : '$' ∈ hex 4 c.toNat := by simpa using List.mem_of_getLast? h
    exact absurd (mem_digits_of_mem_hex hcode hdollar) (by decide)
  · simpa [hc] using h

/-- An escaped text ends in a dollar only if the text does. -/
theorem getLast?_escape {text : List Char} (h : (escape text).getLast? = some '$') :
    text.getLast? = some '$' := by
  rcases List.eq_nil_or_concat text with rfl | ⟨front, c, rfl⟩
  · simp [escape] at h
  rw [List.concat_eq_append] at h ⊢
  by_cases hcut : ∃ d, front.getLast? = some d ∧ isSign d ∧ c = '{'
  · obtain ⟨d, hd, hsign, rfl⟩ := hcut
    obtain ⟨front, rfl⟩ := List.getLast?_eq_some_iff.mp hd
    rw [List.append_assoc, List.singleton_append, escape_append (by
      rintro e - - he
      rw [List.head?_cons, Option.some.injEq] at he
      simp [he, isSign] at hsign), escape_sign_brace hsign] at h
    simp [escape] at h
  · rw [escape_append (by
      intro d hd hsign hc
      exact hcut ⟨d, hd, hsign, by simpa using hc⟩), escape_singleton] at h
    have hne : escapeChar c ≠ [] := by
      rcases escapeChar_eq_or c with hc | ⟨tail, hc⟩ <;> simp [hc]
    rw [List.getLast?_append, List.getLast?_eq_some_getLast hne, Option.some_or,
      ← List.getLast?_eq_some_getLast hne] at h
    simp [getLast?_escapeChar h]

/-! ### Control characters -/

/-- A control character, which is not written as it is. -/
def IsControl (c : Char) : Prop := c.toNat < 0x20 ∨ c.toNat = 0x7f
  deriving Decidable

theorem not_isControl_of_unescape? {letter c : Char} (h : unescape? letter = some c) :
    ¬IsControl letter := by
  unfold unescape? at h
  split at h
  case h_6 => exact absurd h nofun
  all_goals decide

theorem not_isControl_of_mem_escapeChar {c d : Char} (hd : d ∈ escapeChar c) : ¬IsControl d := by
  have hdigits : ('\\' :: 'u' :: "0123456789abcdef".toList).all fun d => !decide (IsControl d) := by
    decide
  rcases escapeChar_cases c with ⟨letter, hletter, hc⟩ | ⟨hcode, hc⟩ | ⟨-, -, hcontrol, hc⟩
  · rw [hc] at hd
    rcases List.mem_pair.mp hd with rfl | rfl
    · decide
    · exact not_isControl_of_unescape? hletter
  · rw [hc] at hd
    have hmem : d ∈ '\\' :: 'u' :: "0123456789abcdef".toList := by
      simp only [List.mem_cons] at hd ⊢
      exact hd.imp_right (Or.imp_right (mem_digits_of_mem_hex hcode))
    simpa using List.all_eq_true.mp hdigits d hmem
  · rw [hc] at hd
    obtain rfl := List.mem_singleton.mp hd
    exact hcontrol

/-- No control character is left in what is escaped. -/
theorem not_isControl_of_mem_escape {text : List Char} {d : Char} (hd : d ∈ escape text) :
    ¬IsControl d := by
  induction text with
  | nil => simp [escape] at hd
  | cons c text ih =>
    by_cases hpair : isSign c ∧ text.head? = some '\x7b'
    · have hsign : ¬IsControl c := by
        rcases isSign_iff.mp hpair.1 with rfl | rfl <;> simp [IsControl]
      have hescape : escape (c :: text) = c :: c :: escape text := by
        simp [escape, hpair]
      rw [hescape, List.mem_cons, List.mem_cons, ← or_assoc, or_self] at hd
      rcases hd with rfl | hd
      · exact hsign
      · exact ih hd
    · rw [escape_cons (by simpa using hpair), List.mem_append] at hd
      rcases hd with hd | hd
      · exact not_isControl_of_mem_escapeChar hd
      · exact ih hd

theorem not_isControl_of_mem_quote {text : List Char} {d : Char} (hd : d ∈ quote text) :
    ¬IsControl d := by
  have hquote : ¬IsControl '"' := by simp [IsControl]
  rw [quote, List.cons_append, List.mem_cons, List.mem_append, List.mem_singleton] at hd
  rcases hd with rfl | hd | rfl
  · exact hquote
  · exact not_isControl_of_mem_escape hd
  · exact hquote

end Text.Quoted

end Stanza
