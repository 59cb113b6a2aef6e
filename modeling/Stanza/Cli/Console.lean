import Stanza.Block.Walk
import Stanza.Convert
import Stanza.Settings

/-!
What the program says on the console.

Lines are marked-up texts: a tag in brackets sets a style or ends it. What a line quotes is escaped,
so that no tags are found in it; the cells of the table of blocks are not. What comes of a marked-up
text on the console is decided outside (`Cli.Console`), and so is whether it can be shown at all.
-/

namespace Stanza.Cli

/-- On which side the lines of a column stand. -/
inductive Side where
  | left
  | right
  deriving DecidableEq, Repr

/-- A column: its heading, its side, and the style of its cells if they have one. -/
structure Column where
  heading : String
  side : Side
  style : Option String

/-- What shows texts. -/
structure Console where
  /-- What is put out for a text that is printed as it is. -/
  echo : List Char → List Char
  /-- A text with the control sequences that make it green. -/
  green : List Char → List Char
  /-- A text marked up so that it is shown as it is. -/
  escape : List Char → List Char
  /-- What is put out for a marked-up line, unless a tag ends what was not set. -/
  print : List Char → Option String
  /-- What is put out for a table with a title and rows of marked-up cells, unless a tag in one of
  them ends what was not set. -/
  table : String → List Column → List (List String) → Option String

/-! ### Lines -/

/-- A marked-up text in a style. -/
def styled (style : String) (text : List Char) : List Char :=
  ("[" ++ style ++ "]").toList ++ text ++ ("[/" ++ style ++ "]").toList

namespace Console

variable (console : Console)

/-- The line that says what failed and why. -/
def reportLine (title message : String) : List Char :=
  '\n' :: styled "red" ("✗ " ++ title ++ ":").toList ++ ' ' :: console.escape message.toList

/-- The line that points to a value. -/
def pathLine (path : Path) : List Char :=
  styled "yellow" "  at:".toList ++ ' ' :: console.escape (Path.text path).toList

/-- The line that says where a document was written to. -/
def wroteLine (path : FilePath) : List Char :=
  '\n' :: styled "green" ("✓ Wrote ".toList ++ console.escape path.text.toList)

/-- The line that counts the blocks that were checked. -/
def countLine (count : Nat) : List Char :=
  '\n' :: styled "green" s!"✓ {count} block(s) compiled and verified".toList

/-- The lines of a report: what failed, and where unless the path to it is empty. -/
def report (title message : String) (path : Path) : List (List Char) :=
  console.reportLine title message :: if path.isEmpty then [] else [console.pathLine path]

end Console

/-! ### The table of blocks -/

/-- The columns of the table of top-level blocks. -/
def blockColumns : List Column :=
  [⟨"Block", .left, some "cyan"⟩, ⟨"Labels", .left, none⟩, ⟨"Attributes", .right, none⟩,
    ⟨"Nested blocks", .right, none⟩]

/-- The number of attributes of a block. -/
def attributeCount : Value → Nat
  | .block _ (.mapping entries) _ => entries.length
  | _ => 0

/-- The row of a block: its keyword, its labels, and how many attributes and nested blocks it
has. -/
def blockRow (node : Value) : Except Fault (List String) := do
  let visits ← Block.walk [] node
  match visits with
  | [] => return []
  | visit :: nested =>
      return [(← visit.keyword).display,
        " ".intercalate ((← visit.labels).map Value.display),
        toString (attributeCount node), toString nested.length]

/-- The table of the rows of some top-level blocks. -/
def Console.blockTable (console : Console) (rows : List (List String)) : Option String :=
  console.table "Top-level blocks" blockColumns rows

end Stanza.Cli
