import Stanza.Proofs.Layout.Lexeme

/-!
Reading lexemes.

`tokens` takes a text apart: spaces and line feeds count for nothing, a quote begins a quoted
string, which is read by `unquote`, a row of `isWordChar`s is a word, and any other character is a
mark. `Lexeme.Reads` says as which token a lexeme is read, whatever comes behind it, and a text that
is laid out from lexemes is read as the tokens of its lexemes (`tokens_of_laid`).
-/

namespace Stanza

/-- What is read of a lexeme: a mark, a word, or what a quoted string holds. -/
inductive Token where
  | mark (c : Char)
  | word (chars : List Char)
  | quoted (pieces : List Piece)
  deriving DecidableEq, Repr, Inhabited

/-- Whether a character counts for nothing between lexemes. -/
def isSpace (c : Char) : Bool := c = ' ' || c = '\n'

/-- The tokens of a text. There are none when a quoted string does not end. -/
def tokens : List Char → Option (List Token)
  | [] => some []
  | c :: rest =>
      if isSpace c then tokens rest
      else if c = '"' then
        match _h : Text.Quoted.unquote none rest with
        | some (pieces, behind) => (tokens behind).map (.quoted pieces :: ·)
        | none => none
      else if Text.isWordChar c then
        (tokens (rest.dropWhile Text.isWordChar)).map
          (.word (c :: rest.takeWhile Text.isWordChar) :: ·)
      else (tokens rest).map (.mark c :: ·)
termination_by text => text.length
decreasing_by
  · exact Nat.lt_succ_self _
  · exact Nat.lt_succ_of_lt (Text.Quoted.length_lt_of_unquote _h)
  · exact Nat.lt_succ_of_le (List.dropWhile_sublist _).length_le
  · exact Nat.lt_succ_self _

/-- Whether a character is a mark by itself. -/
def standsAlone (c : Char) : Bool := !isSpace c && c != '"' && !Text.isWordChar c

/-- A lexeme is read as a token, whatever comes behind it that does not go on with a word. -/
def Lexeme.Reads : Lexeme → Token → Prop
  | .mark c, token => standsAlone c ∧ token = .mark c
  | .text chars, token =>
      ∀ rest, Breaks rest → tokens (chars ++ rest) = (tokens rest).map (token :: ·)

theorem isSpace_iff {c : Char} : isSpace c = true ↔ c = ' ' ∨ c = '\n' := by
  simp [isSpace]

theorem tokens_nil : tokens [] = some [] := by rw [tokens]

theorem tokens_blank {c : Char} (h : c = ' ' ∨ c = '\n') (rest : List Char) :
    tokens (c :: rest) = tokens rest := by
  rw [tokens, if_pos (isSpace_iff.mpr h)]

theorem tokens_mark {c : Char} (h : standsAlone c) (rest : List Char) :
    tokens (c :: rest) = (tokens rest).map (.mark c :: ·) := by
  obtain ⟨⟨hspace, hquote⟩, hword⟩ : (isSpace c = false ∧ c ≠ '"') ∧ Text.isWordChar c = false := by
    simpa [standsAlone] using h
  rw [tokens, if_neg (by simp [hspace]), if_neg hquote, if_neg (by simp [hword])]

theorem not_isSpace_of_isWordChar {c : Char} (h : Text.isWordChar c) :
    isSpace c = false ∧ c ≠ '"' := by
  constructor
  · by_contra hspace
    rcases isSpace_iff.mp (by simpa using hspace) with rfl | rfl
    · exact absurd h (by decide)
    · exact absurd h (by decide)
  · rintro rfl
    exact absurd h (by decide)

/-- A word that does not go on is read as the word. -/
theorem tokens_word {word rest : List Char} (hne : word ≠ [])
    (hword : ∀ c ∈ word, Text.isWordChar c) (hrest : Breaks rest) :
    tokens (word ++ rest) = (tokens rest).map (.word word :: ·) := by
  obtain ⟨c, word, rfl⟩ := List.exists_cons_of_ne_nil hne
  obtain ⟨hc, hword⟩ := List.forall_mem_cons.mp hword
  obtain ⟨hspace, hquote⟩ := not_isSpace_of_isWordChar hc
  have htake : rest.takeWhile Text.isWordChar = [] := by
    cases rest with
    | nil => rfl
    | cons d rest => simp [hrest d rfl]
  have hdrop : rest.dropWhile Text.isWordChar = rest := by
    cases rest with
    | nil => rfl
    | cons d rest => simp [hrest d rfl]
  rw [List.cons_append, tokens, if_neg (by simp [hspace]), if_neg hquote, if_pos hc,
    List.takeWhile_append_of_pos hword, List.dropWhile_append_of_pos hword, htake, hdrop,
    List.append_nil]

/-- A quoted string is read as what it holds. -/
theorem tokens_quoted {inside behind : List Char} {pieces : List Piece}
    (h : Text.Quoted.unquote none inside = some (pieces, behind)) :
    tokens ('"' :: inside) = (tokens behind).map (.quoted pieces :: ·) := by
  rw [tokens, if_neg (by decide), if_pos rfl]
  split
  · rename_i pieces' behind' hread
    rw [h] at hread
    obtain ⟨rfl, rfl⟩ : pieces = pieces' ∧ behind = behind' := by simpa using hread
    rfl
  · rename_i hread
    rw [h] at hread
    simp at hread

/-! ### Lexemes and their tokens -/

namespace Lexeme

theorem reads_mark (c : Char) (h : standsAlone c := by decide) : (mark c).Reads (.mark c) :=
  ⟨h, rfl⟩

theorem reads_word {word : List Char} (hne : word ≠ []) (h : ∀ c ∈ word, Text.isWordChar c) :
    (text word).Reads (.word word) :=
  fun _ hrest => tokens_word hne h hrest

theorem reads_identifier {name : List Char} (h : Text.isIdentifier name) :
    (text name).Reads (.word name) := by
  refine reads_word ?_ (Text.all_isWordChar_of_isIdentifier h)
  rintro rfl
  simp [Text.isIdentifier] at h

/-- What is read between quotes is read of the quoted string. -/
theorem reads_quoted {inside : List Char} {pieces : List Piece}
    (h : ∀ rest, Text.Quoted.unquote none (inside ++ '"' :: rest) = some (pieces, rest)) :
    (text ('"' :: inside ++ ['"'])).Reads (.quoted pieces) := by
  intro rest _
  simpa using tokens_quoted (h rest)

theorem reads_quote (s : List Char) : (text (Text.Quoted.quote s)).Reads (.quoted (s.map .char)) :=
  reads_quoted (Text.Quoted.unquote_quote s)

end Lexeme

/-- **Tokens of a layout.** A text that is laid out from lexemes is read as their tokens. -/
theorem tokens_of_laid {lexemes : List Lexeme} {text : List Char} {ts : List Token}
    (hlaid : Laid lexemes text) (hreads : List.Forall₂ Lexeme.Reads lexemes ts) :
    tokens text = some ts := by
  induction hlaid generalizing ts with
  | nil =>
    cases hreads
    exact tokens_nil
  | blank hblank _ ih => rw [tokens_blank hblank, ih hreads]
  | mark _ ih =>
    obtain _ | ⟨⟨hmark, rfl⟩, hrest⟩ := hreads
    rw [tokens_mark hmark, ih hrest]
    rfl
  | text chars hbreaks _ ih =>
    obtain _ | ⟨hread, hrest⟩ := hreads
    rw [hread _ hbreaks, ih hrest]
    rfl

end Stanza
