import Stanza.Format

/-!
Lines before they are indented.

What is rendered is first a list of lines, each blank or a content at a depth. Only when lines are
written do the width and the starting level come in: a content is put behind the spaces of its
level and a blank line stays empty. So neither can change which lines there are.
-/

namespace Stanza

/-- A line: blank, or a content so many levels in. -/
inductive Line where
  | blank
  | code (depth : Nat) (content : List Char)
  deriving DecidableEq, Repr, Inhabited

/-- Texts with a separator between them. -/
def joined (separator : List Char) : List (List Char) → List Char
  | [] => []
  | [text] => text
  | text :: rest => text ++ separator ++ joined separator rest

namespace Line

/-- A line one level further in. -/
def deepen : Line → Line
  | .blank => .blank
  | .code depth content => .code (depth + 1) content

/-- A line as it is written at a level. -/
def write (width : Nat) (level : Int) : Line → List Char
  | .blank => []
  | .code depth content => indent width (level + depth) ++ content

/-- Lines as they are written at a level, a line feed between them. -/
def writeAll (width : Nat) (level : Int) (lines : List Line) : List Char :=
  joined ['\n'] (lines.map (write width level))

end Line

/-- A text that may run over several lines. The head stands wherever the text begins; the lines
of the tail count their depth from the line it begins on. -/
structure Rendered where
  head : List Char
  tail : List Line
  deriving DecidableEq, Repr, Inhabited

namespace Rendered

/-- Whether a text is on one line: it has no tail, and no line feed inside. -/
def isSingle (r : Rendered) : Bool := r.tail.isEmpty && !r.head.contains '\n'

/-- A text with something in front of its head. -/
def lead (before : List Char) (r : Rendered) : Rendered := { r with head := before ++ r.head }

/-- A text with something behind its last line. -/
def close (after : List Char) (r : Rendered) : Rendered :=
  match r.tail.reverse with
  | [] => { r with head := r.head ++ after }
  | .blank :: above => { r with tail := (.code 0 after :: above).reverse }
  | .code depth content :: above =>
      { r with tail := (.code depth (content ++ after) :: above).reverse }

/-- The lines of a text. -/
def lines (r : Rendered) : List Line := .code 0 r.head :: r.tail

/-- A text as it is written when it begins on a line of a level. -/
def write (width : Nat) (level : Int) (r : Rendered) : List Char :=
  r.head ++ r.tail.flatMap fun line => '\n' :: line.write width level

end Rendered

end Stanza
