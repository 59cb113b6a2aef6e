import Mathlib.Logic.Relation
import Stanza.Proofs.Expression.Grammar

/-!
Quoting a text.

Between quotes a text reads back as itself, so quoting is injective, and the check of expressions
accepts what is quoted (`quote_faithful`). On the way the scanner is inside one string and nothing
else from the first quote to the last: no escape of the text ends the string, and none opens an
interpolation in it. To say so the scanner is taken turn by turn: `turn?` is what one turn does, and
`scan_eq_ok_iff` that scanning is taking turns until the text is read.

* `readPlain_escape`: escapes and doubled signs are undone.
* `IsOneString.escapeChar`: the escape of a character keeps the scanner inside the string.
-/

namespace Stanza

namespace Text.Quoted

/-! ### Escapes undone -/

/-- Reads what stands between quotes from left to right: escapes are undone, a doubled sign before a
brace is the sign and the brace, and any other character is itself. -/
def readPlain : List Char → Option (List Char)
  | [] => some []
  | '\\' :: 'u' :: a :: b :: c :: d :: rest =>
      match ofHex? [a, b, c, d] with
      | some char => (readPlain rest).map (char :: ·)
      | none => none
  | '\\' :: c :: rest =>
      match unescape? c with
      | some char => (readPlain rest).map (char :: ·)
      | none => none
  | '\\' :: [] => none
  | '$' :: '$' :: '\x7b' :: rest => (readPlain rest).map ('$' :: '\x7b' :: ·)
  | '%' :: '%' :: '\x7b' :: rest => (readPlain rest).map ('%' :: '\x7b' :: ·)
  | c :: rest => (readPlain rest).map (c :: ·)

/-- A character that is read as itself. -/
theorem readPlain_char {c : Char} {rest : List Char} (hslash : c ≠ '\\') (hsign : Apart [c] rest) :
    readPlain (c :: rest) = (readPlain rest).map (c :: ·) := by
  have hs := hsign c rfl
  rw [readPlain.eq_def]
  split <;> simp_all [isSign]

theorem readPlain_letter {letter c : Char} (h : unescape? letter = some c) (rest : List Char) :
    readPlain ('\\' :: letter :: rest) = (readPlain rest).map (c :: ·) := by
  unfold unescape? at h
  split at h
  case h_6 => exact absurd h nofun
  all_goals
    obtain rfl := Option.some.inj h
    rfl

theorem readPlain_escapeChar {c : Char} {rest : List Char} (hsign : Apart [c] rest) :
    readPlain (escapeChar c ++ rest) = (readPlain rest).map (c :: ·) := by
  rcases escapeChar_cases c with ⟨letter, hletter, hc⟩ | ⟨hcode, hc⟩ | ⟨-, hslash, -, hc⟩
  · rw [hc]
    exact readPlain_letter hletter rest
  · rw [hc]
    obtain ⟨hlength, hread⟩ := ofHex?_hex ⟨c.toNat, hcode⟩
    match hdigits : hex 4 c.toNat, hlength with
    | [a, b, d, e], _ =>
      simp only [hdigits, Char.ofNat_toNat] at hread
      simp [readPlain, hread]
  · rw [hc]
    exact readPlain_char hslash hsign

/-- What is escaped reads back. -/
theorem readPlain_escape (text : List Char) : readPlain (escape text) = some text := by
  have hapart : Apart text [] := fun _ _ _ => ⟨by simp, by simp⟩
  refine Apart.induction (motive := fun text => readPlain (escape text) = some text)
    rfl ?_ ?_ hapart
  · intro c text hsign ih
    rw [escape_sign_brace hsign]
    rcases isSign_iff.mp hsign with rfl | rfl
    · simp [readPlain, ih]
    · simp [readPlain, ih]
  · intro c text hapart hescape ih
    rw [List.append_nil] at hapart
    rw [hescape, readPlain_escapeChar hapart, ih]
    rfl

/-- Different texts are quoted differently. -/
theorem quote_injective : Function.Injective quote := by
  intro text other h
  have hescape : escape text = escape other := by simpa [quote] using h
  have hread := congrArg readPlain hescape
  rwa [readPlain_escape, readPlain_escape, Option.some.injEq] at hread

end Text.Quoted

namespace Expression

open Text.Quoted Relation

/-! ### The scanner turn by turn -/

/-- What one turn makes of the open delimiters and the text to be read. There is none at the end of
the text, nor at a closer out of place. -/
def turn? : List Delimiter → List Char → Option (List Delimiter × List Char)
  | _, [] => none
  | .string :: stack, '\\' :: [] => some (.string :: stack, [])
  | .string :: stack, '\\' :: _ :: rest => some (.string :: stack, rest)
  | .string :: stack, '$' :: '$' :: '\x7b' :: rest => some (.string :: stack, rest)
  | .string :: stack, '%' :: '%' :: '\x7b' :: rest => some (.string :: stack, rest)
  | .string :: stack, '$' :: '\x7b' :: rest => some (.brace :: .string :: stack, rest)
  | .string :: stack, '%' :: '\x7b' :: rest => some (.brace :: .string :: stack, rest)
  | .string :: stack, c :: rest =>
      if c = '"' then some (stack, rest) else some (.string :: stack, rest)
  | stack, c :: rest =>
      if c = '"' then some (.string :: stack, rest)
      else match Delimiter.ofOpener? c, Delimiter.ofCloser? c with
        | some opened, _ => some (opened :: stack, rest)
        | none, none => some (stack, rest)
        | none, some closed =>
            match stack with
            | top :: below => if top = closed then some (below, rest) else none
            | [] => none

/-- One turn of the scanner. -/
def Turn (before after : List Delimiter × List Char) : Prop :=
  turn? before.1 before.2 = some after

variable {stack final : List Delimiter} {text rest : List Char} {c : Char}

/-- Scanning is taking a turn and scanning what is left. -/
theorem scan_eq_turn (offset : Nat) (stack : List Delimiter) (text : List Char) :
    scan offset stack text = match turn? stack text, text with
      | some (after, rest), _ => scan (offset + (text.length - rest.length)) after rest
      | none, [] => .ok stack
      | none, c :: _ => .error (.unexpected c offset) := by
  fun_cases turn? stack text
  all_goals simp_all [scan]
  -- some turns take two or three characters
  all_goals
    congr 1
    omega

/-- The text to be read gets shorter with each turn. -/
theorem length_lt_of_turn? {after : List Delimiter × List Char}
    (h : turn? stack text = some after) : after.2.length < text.length := by
  revert h
  fun_cases turn? stack text
  all_goals
    intro h
    simp_all only [Option.some.injEq, reduceCtorEq]
  all_goals
    subst h
    simp only [List.length_cons]
    omega

/-- What the scanner comes to is where it is, or what it comes to after its next turn. -/
theorem turns_iff {after state : List Delimiter × List Char} (h : turn? stack text = some after) :
    ReflTransGen Turn (stack, text) state ↔
      state = (stack, text) ∨ ReflTransGen Turn after state := by
  constructor
  · intro hturns
    rcases hturns.cases_head with rfl | ⟨next, hnext, hturns⟩
    · exact .inl rfl
    · obtain rfl : after = next := Option.some.inj (h.symm.trans hnext)
      exact .inr hturns
  · rintro (rfl | hturns)
    · exact .refl
    · exact .head h hturns

theorem turns_of_turn?_eq_none {state : List Delimiter × List Char} (h : turn? stack text = none) :
    ReflTransGen Turn (stack, text) state ↔ state = (stack, text) := by
  constructor
  · intro hturns
    rcases hturns.cases_head with rfl | ⟨next, hnext, -⟩
    · rfl
    · exact absurd (h.symm.trans hnext) (by simp)
  · rintro rfl
    exact .refl

/-- Scanning a text to its end is taking turns until nothing is left to be read. -/
theorem scan_eq_ok_iff (offset : Nat) (stack : List Delimiter) (text : List Char) :
    scan offset stack text = .ok final ↔ ReflTransGen Turn (stack, text) (final, []) := by
  rw [scan_eq_turn]
  cases hturn : turn? stack text with
  | none =>
    rw [turns_of_turn?_eq_none hturn]
    cases text with
    | nil => simp [eq_comm]
    | cons c text => simp
  | some after =>
    obtain ⟨after, rest⟩ := after
    have hshorter := length_lt_of_turn? hturn
    have hne : (final, []) ≠ (stack, text) := by
      rintro ⟨⟩
      simp at hshorter
    rw [turns_iff hturn, or_iff_right hne]
    exact scan_eq_ok_iff _ after rest
termination_by text.length

/-! ### Inside one string -/

/-- From here on the scanner is inside one string, up to the last character of the text, which ends
it. -/
def IsOneString (text : List Char) : Prop :=
  ∀ state, ReflTransGen Turn ([.string], text) state →
    state.1 = [.string] ∧ state.2 ≠ [] ∨ state = ([], [])

theorem isOneString_quote : IsOneString ['"'] := by
  intro state hturns
  rcases (turns_iff rfl).mp hturns with rfl | hturns
  · exact .inl ⟨rfl, by simp⟩
  · exact .inr ((turns_of_turn?_eq_none rfl).mp hturns)

/-- A turn that leaves the string open. -/
theorem IsOneString.turn (h : IsOneString rest) (hne : text ≠ [])
    (hturn : turn? [.string] text = some ([.string], rest)) : IsOneString text := by
  intro state hturns
  rcases (turns_iff hturn).mp hturns with rfl | hturns
  · exact .inl ⟨rfl, hne⟩
  · exact h state hturns

theorem IsOneString.char (h : IsOneString rest) (hquote : c ≠ '"') (hslash : c ≠ '\\')
    (hsign : Apart [c] rest) : IsOneString (c :: rest) := by
  have hs := hsign c rfl
  refine h.turn (by simp) ?_
  rw [turn?.eq_def]
  split <;> simp_all [isSign]

/-- Characters that are no quotes, backslashes or signs leave the string open. -/
theorem IsOneString.inert (h : IsOneString rest)
    (hinert : ∀ c ∈ text, c ≠ '"' ∧ c ≠ '\\' ∧ isSign c = false) : IsOneString (text ++ rest) := by
  induction text with
  | nil => exact h
  | cons c text ih =>
    obtain ⟨⟨hquote, hslash, hsign⟩, htext⟩ := List.forall_mem_cons.mp hinert
    exact (ih htext).char hquote hslash (apart_of_not_isSign (by simpa))

/-- The escape of a character leaves the string open. -/
theorem IsOneString.escapeChar (h : IsOneString rest) (hsign : Apart [c] rest) :
    IsOneString (Text.Quoted.escapeChar c ++ rest) := by
  rcases escapeChar_cases c with ⟨letter, -, hc⟩ | ⟨hcode, hc⟩ | ⟨hquote, hslash, -, hc⟩
  · rw [hc]
    exact h.turn (by simp) rfl
  · rw [hc]
    have hdigits : IsOneString (Text.hex 4 c.toNat ++ rest) := h.inert (inert_hex hcode)
    exact hdigits.turn (by simp) rfl
  · rw [hc]
    exact h.char hquote hslash hsign

/-- The escape of a text leaves the string open up to the quote behind it. -/
theorem isOneString_escape (text : List Char) : IsOneString (escape text ++ ['"']) := by
  refine Apart.induction (motive := fun text => IsOneString (escape text ++ ['"']))
    isOneString_quote ?_ ?_ (apart_quote text [])
  · intro c text hsign ih
    rw [escape_sign_brace hsign]
    rcases isSign_iff.mp hsign with rfl | rfl
    · exact ih.turn (by simp) rfl
    · exact ih.turn (by simp) rfl
  · intro c text hapart hescape ih
    rw [hescape, List.append_assoc]
    exact ih.escapeChar hapart

/-! ### Quoted texts -/

theorem scan_quote_eq (text : List Char) : scan 0 [] (quote text) = .ok [] := by
  have hneutral := neutral_quote text 0 [] [] inCode_nil
  rwa [List.append_nil, scan] at hneutral

/-- The check of expressions accepts what is quoted. -/
theorem check_quote (text : List Char) (path : Path) :
    check (.text (String.ofList (quote text))) path = .ok (String.ofList (quote text)) := by
  have hbalanced : isBalanced (quote text) := isBalanced_iff_scan.mpr (scan_quote_eq text)
  have hblank : Text.allBlank (quote text) = false := by
    have hquote : Text.isBlank '"' = false := by decide
    simp [Text.allBlank, quote, hquote]
  have hnone : rejection? (String.ofList (quote text)) = none := by
    rw [rejection?_eq_none_iff, String.toList_ofList]
    exact ⟨hblank, hbalanced⟩
  simp [check, checkText, hnone]

/-- **Quoting a text.** Between the quotes the text reads back, so no other text is quoted the same
way. The check of expressions accepts what is quoted: its scanner gets to the end with nothing open,
and on the way it is inside one string and nothing else, until the last character ends it. No
control character is left. -/
theorem quote_faithful (text : List Char) :
    readPlain (escape text) = some text ∧
    (∀ other, quote other = quote text → other = text) ∧
    (∀ path, check (.text (String.ofList (quote text))) path =
      .ok (String.ofList (quote text))) ∧
    ReflTransGen Turn ([], quote text) ([], []) ∧
    (∀ state, ReflTransGen Turn ([], quote text) state →
      state = ([], quote text) ∨ state.1 = [.string] ∧ state.2 ≠ [] ∨ state = ([], [])) ∧
    ∀ c ∈ quote text, ¬IsControl c := by
  refine ⟨readPlain_escape text, fun other h => quote_injective h, check_quote text, ?_, ?_, ?_⟩
  · exact (scan_eq_ok_iff 0 [] (quote text)).mp (scan_quote_eq text)
  · intro state hturns
    have hopen : turn? [] (quote text) = some ([.string], escape text ++ ['"']) := rfl
    rcases (turns_iff hopen).mp hturns with rfl | hturns
    · exact .inl rfl
    · exact .inr (isOneString_escape text state hturns)
  · intro c hc
    exact not_isControl_of_mem_quote hc

end Expression

end Stanza
