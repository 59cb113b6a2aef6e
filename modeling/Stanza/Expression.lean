import Stanza.Fault
import Stanza.Text.Blank

/-!
Delimiters of raw expressions.

An expression is passed through as it stands, so all that is checked is that its delimiters
balance: brackets close in the order in which they were opened, strings end, and so do the
interpolations inside strings. `scan` reads a text with a stack of the delimiters still open, and
`balance` says of a whole text what is wrong with it, if anything.
-/

namespace Stanza

/-- A delimiter that is still open. The brace of an interpolation is a brace like any other. -/
inductive Delimiter where
  | string
  | paren
  | square
  | brace
  deriving DecidableEq, Repr, Inhabited

namespace Delimiter

/-- The character that closes a delimiter. -/
def closer : Delimiter → Char
  | .string => '"'
  | .paren => ')'
  | .square => ']'
  | .brace => '}'

/-- The bracket that a character opens. -/
def ofOpener? : Char → Option Delimiter
  | '(' => some .paren
  | '[' => some .square
  | '{' => some .brace
  | _ => none

/-- The bracket that a character closes. -/
def ofCloser? : Char → Option Delimiter
  | ')' => some .paren
  | ']' => some .square
  | '}' => some .brace
  | _ => none

end Delimiter

/-- How a text fails to balance. -/
inductive Imbalance where
  /-- The closer at an offset does not close what was opened last. -/
  | unexpected (closer : Char) (offset : Nat)
  /-- The text ends, and this delimiter is the last one open. -/
  | unclosed (delimiter : Delimiter)
  deriving DecidableEq, Repr, Inhabited

namespace Expression

/-- Reads a text from an offset on, with the delimiters that are open, the last one first. The
answer is what stays open at the end, or the first closer out of place.

In a string a backslash hides the next character, a doubled sign before a brace hides all three,
and a sign before a brace opens an interpolation. Outside, quotes open strings and brackets open
and close. -/
def scan (offset : Nat) : List Delimiter → List Char → Except Imbalance (List Delimiter)
  | stack, [] => .ok stack
  | .string :: stack, '\\' :: [] => .ok (.string :: stack)
  | .string :: stack, '\\' :: _ :: rest => scan (offset + 2) (.string :: stack) rest
  | .string :: stack, '$' :: '$' :: '{' :: rest => scan (offset + 3) (.string :: stack) rest
  | .string :: stack, '%' :: '%' :: '{' :: rest => scan (offset + 3) (.string :: stack) rest
  | .string :: stack, '$' :: '{' :: rest => scan (offset + 2) (.brace :: .string :: stack) rest
  | .string :: stack, '%' :: '{' :: rest => scan (offset + 2) (.brace :: .string :: stack) rest
  | .string :: stack, c :: rest =>
      if c = '"' then scan (offset + 1) stack rest
      else scan (offset + 1) (.string :: stack) rest
  | stack, c :: rest =>
      if c = '"' then scan (offset + 1) (.string :: stack) rest
      else match Delimiter.ofOpener? c, Delimiter.ofCloser? c with
        | some opened, _ => scan (offset + 1) (opened :: stack) rest
        | none, none => scan (offset + 1) stack rest
        | none, some closed =>
            match stack with
            | top :: below =>
                if top = closed then scan (offset + 1) below rest
                else .error (.unexpected c offset)
            | [] => .error (.unexpected c offset)
termination_by structural _ text => text

/-- How a text fails to balance, if it does. -/
def imbalance? (text : List Char) : Option Imbalance :=
  match scan 0 [] text with
  | .error imbalance => some imbalance
  | .ok [] => none
  | .ok (delimiter :: _) => some (.unclosed delimiter)

/-- A text is balanced when every delimiter in it is closed in turn. -/
def isBalanced (text : List Char) : Bool := (imbalance? text).isNone

/-- A text is well formed when it is balanced and not blank. -/
def isWellFormed (text : List Char) : Bool := !Text.allBlank text && isBalanced text

/-- The cause of rejecting a text, if it is rejected. -/
def rejection? (s : String) : Option Cause :=
  if Text.allBlank s.toList then some .emptyExpression
  else match imbalance? s.toList with
    | none => none
    | some (.unexpected closer offset) => some (.unexpectedCloser closer offset s)
    | some (.unclosed .string) => some (.unterminated s)
    | some (.unclosed delimiter) => some (.missingCloser delimiter.closer s)

/-- Checks the text of a raw expression. -/
def checkText (s : String) (path : Path) : Except Fault String :=
  match rejection? s with
  | none => .ok s
  | some cause => fail cause path

/-- Checks a raw expression, which has to be a text. -/
def check (expression : Value) (path : Path) : Except Fault String :=
  match expression with
  | .text s => checkText s path
  | _ => fail .emptyExpression path

end Expression

end Stanza
