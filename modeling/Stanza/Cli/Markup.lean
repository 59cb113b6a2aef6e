import Stanza.Text.Blank
import Stanza.Text.Lower

/-!
Marked-up text, as reports are written in.

A tag stands in brackets and starts with a small letter, `#`, `/` or `@`; it sets a style and is
not shown. A backslash before a bracket is not shown and makes the bracket one of the text. So
that a text with tags is shown as it is, it is written with a backslash before each of them. A tag
that starts with a slash ends a style; where no such style has been set, the text cannot be shown.
-/

namespace Stanza.Cli.Markup

/-- Whether a tag can start with a character. -/
def opensTag (c : Char) : Bool := c.isLower || ['#', '/', '@'].contains c

/-- The length of the tag after a bracket, with its last bracket. It holds no other bracket. -/
def tagLength? : List Char → Option Nat
  | c :: rest =>
      let body := rest.takeWhile fun c => c != '[' && c != ']'
      if opensTag c && (rest.drop body.length).head? = some ']' then some (body.length + 2)
      else none
  | [] => none

/-- A piece of a marked-up text: what is shown as it is, or a tag without its brackets. -/
inductive Piece where
  | text (chars : List Char)
  | tag (chars : List Char)
  deriving DecidableEq, Repr

/-- What is shown of a piece. -/
def Piece.shown : Piece → List Char
  | .text chars => chars
  | .tag _ => []

/-- The tag that a piece is, if it is one. -/
def Piece.tag? : Piece → Option (List Char)
  | .text _ => none
  | .tag chars => some chars

/-- The pieces of a text, of whose start the given number of characters are not looked at and the
given number of backslashes were just read. An even number of backslashes before a tag stands for
half as many, and an odd one makes the tag a part of the text. -/
def scanFrom (skipped backslashes : Nat) : List Char → List Piece
  | [] => [.text (List.replicate backslashes '\\')]
  | c :: rest =>
      match skipped with
      | n + 1 => scanFrom n 0 rest
      | 0 =>
          if c = '\\' then scanFrom 0 (backslashes + 1) rest
          else if c = '[' then
            match tagLength? rest with
            | some length =>
                .text (List.replicate (backslashes / 2) '\\') ::
                  (if backslashes % 2 = 1 then .text (c :: rest.take length)
                    else .tag (rest.take (length - 1))) :: scanFrom length 0 rest
            | none => .text (List.replicate (backslashes - 1) '\\' ++ [c]) :: scanFrom 0 0 rest
          else .text (List.replicate backslashes '\\' ++ [c]) :: scanFrom 0 0 rest

/-- What is shown of a text. -/
def render (text : List Char) : List Char := (scanFrom 0 0 text).flatMap Piece.shown

/-- Short names of styles. -/
def shortNames : List (String × String) :=
  [("b", "bold"), ("d", "dim"), ("i", "italic"), ("u", "underline"), ("r", "reverse"),
    ("c", "conceal"), ("s", "strike"), ("uu", "underline2"), ("o", "overline")]

/-- The style of a name, by which tags that set and end it are matched. -/
def style (name : List Char) : String :=
  let bare := ((name.dropWhile Text.isBlank).reverse.dropWhile Text.isBlank).reverse
  let small := String.ofList (Text.toSmall bare)
  (shortNames.lookup small).getD small

/-- Whether each of some tags that ends a style has one to end, after tags that set the given
styles, the last of them first. A lone slash ends the last style. -/
def areClosed (styles : List String) : List (List Char) → Bool
  | [] => true
  | tag :: rest =>
      match tag.takeWhile (· ≠ '=') with
      | '/' :: name =>
          if Text.allBlank name then !styles.isEmpty && areClosed styles.tail rest
          else styles.contains (style name) && areClosed (styles.erase (style name)) rest
      | name => areClosed (style name :: styles) rest

/-- Whether a text can be shown. -/
def isSound (text : List Char) : Bool := areClosed [] ((scanFrom 0 0 text).filterMap Piece.tag?)

/-- A text with a backslash before each tag and with twice the backslashes that stand there, of
whose start the given number of characters are kept and the given number of backslashes were
just read. -/
def escapeFrom (kept backslashes : Nat) : List Char → List Char
  | [] => []
  | c :: rest =>
      match kept with
      | n + 1 => c :: escapeFrom n 0 rest
      | 0 =>
          if c = '\\' then c :: escapeFrom 0 (backslashes + 1) rest
          else if c = '[' then
            match tagLength? rest with
            | some length =>
                List.replicate (backslashes + 1) '\\' ++ c :: escapeFrom length 0 rest
            | none => c :: escapeFrom 0 0 rest
          else c :: escapeFrom 0 0 rest

/-- A text written so that its tags are shown. A single backslash at its end is doubled. -/
def escape (text : List Char) : List Char :=
  let escaped := escapeFrom 0 0 text
  match escaped.reverse with
  | '\\' :: '\\' :: _ => escaped
  | '\\' :: _ => escaped ++ ['\\']
  | _ => escaped

/-- A text without brackets is one piece after another of what it is. -/
theorem scanFrom_of_not_mem {text : List Char} (plain : '[' ∉ text) (backslashes : Nat) :
    (scanFrom 0 backslashes text).flatMap Piece.shown = List.replicate backslashes '\\' ++ text ∧
      (scanFrom 0 backslashes text).filterMap Piece.tag? = [] := by
  induction text generalizing backslashes with
  | nil => simp [scanFrom, Piece.shown, Piece.tag?]
  | cons c rest ih =>
    simp only [List.mem_cons, not_or] at plain
    by_cases backslash : c = '\\'
    · subst backslash
      obtain ⟨shown, untagged⟩ := ih plain.2 (backslashes + 1)
      rw [scanFrom, if_pos rfl, shown, List.replicate_succ', List.append_assoc]
      exact ⟨rfl, untagged⟩
    · obtain ⟨shown, untagged⟩ := ih plain.2 0
      rw [scanFrom, if_neg backslash, if_neg (Ne.symm plain.1), List.flatMap_cons, shown,
        List.filterMap_cons_none rfl]
      exact ⟨by simp [Piece.shown], untagged⟩

/-- A text without brackets is shown as it is. -/
theorem render_of_not_mem {text : List Char} (plain : '[' ∉ text) : render text = text := by
  rw [render, (scanFrom_of_not_mem plain 0).1]
  rfl

/-- A text without brackets can be shown. -/
theorem isSound_of_not_mem {text : List Char} (plain : '[' ∉ text) : isSound text := by
  rw [isSound, (scanFrom_of_not_mem plain 0).2]
  rfl

end Stanza.Cli.Markup
