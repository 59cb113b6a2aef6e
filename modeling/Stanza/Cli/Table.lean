import Stanza.Cli.Console
import Stanza.Cli.Screen
import Stanza.Text.Blank

/-!
Tables on the screen.

A column is as wide as its widest line, in which a tab takes no cell. A cell can have several
lines: those of its text, cut between words where they are wider than the column once their tabs
are spaces. A line that is too wide even so is cut off and ends with an ellipsis. The other cells
of a row are filled up below.
-/

namespace Stanza.Cli

/-! ### Cells -/

/-- The lines of a text, which end at the given characters. -/
def splitLines (ends : Char → Bool) : List Char → List (List Char)
  | [] => [[]]
  | c :: rest =>
      if ends c then [] :: splitLines ends rest
      else match splitLines ends rest with
        | [] => [[c]]
        | line :: others => (c :: line) :: others

/-- Whether a line can be thought to end at a character when a cell is measured. -/
def endsMeasure (c : Char) : Bool :=
  [0x0a, 0x0b, 0x0c, 0x0d, 0x1c, 0x1d, 0x1e, 0x85, 0x2028, 0x2029].contains c.toNat

/-- The number of cells that the widest line of a text takes. -/
def widest (text : List Char) : Nat :=
  ((splitLines endsMeasure text).map Text.cells).foldl max 0

/-- The words of a line with the blanks after them; the first has also those before it. -/
def pieces (line : List Char) : List (List Char) :=
  match line.splitBy fun a b => !Text.isBlank a || Text.isBlank b with
  | blanks :: word :: rest =>
      if Text.allBlank blanks then (blanks ++ word) :: rest else blanks :: word :: rest
  | whole => whole

/-- A text without its last characters, of those that are blank at most a number. -/
def dropBlankEnd (most : Nat) (text : List Char) : List Char :=
  text.take (text.length - min most (text.reverse.takeWhile Text.isBlank).length)

/-- The lines that pieces fill after the start of a line. A piece goes to the next line if its
word would be beyond the width. -/
def fillLines (width : Nat) (line : List Char) : List (List Char) → List (List Char)
  | [] => [line]
  | piece :: rest =>
      if Text.cells line + Text.cells (dropBlankEnd piece.length piece) ≤ width then
        fillLines width (line ++ piece) rest
      else line :: fillLines width piece rest

/-- A line in as many lines as it takes at a width. Blanks at their ends do not make them wide. -/
def wrap (width : Nat) (line : List Char) : List (List Char) :=
  match pieces (expandTabs [] line) with
  | [] => [[]]
  | piece :: rest =>
      (fillLines width piece rest).map fun line => dropBlankEnd (line.length - width) line

/-- A line cut off at a width, if it is wider. -/
def cutOff (width : Nat) (line : List Char) : List Char :=
  if Text.cells line ≤ width then line
  else
    let start := Text.takeCells (width - 1) line
    start ++ (List.replicate (width - 1 - Text.cells start) ' ' ++ ['…'])

/-- A line filled up to a width. -/
def fillUp (side : Side) (width : Nat) (line : List Char) : List Char :=
  let spaces (line : List Char) := List.replicate (width - Text.cells line) ' '
  match side with
  | .left =>
      let line := cutOff width line
      line ++ spaces line
  | .right =>
      let line := cutOff width (dropBlankEnd line.length line)
      spaces line ++ line

/-- The text of a cell. -/
def cellText (cell : String) : List Char := unmoving (Markup.render cell.toList)

/-- The lines of a cell at a width. -/
def cellLines (side : Side) (width : Nat) (cell : String) : List (List Char) :=
  ((splitLines (· == '\n') (cellText cell)).flatMap (wrap width)).map (fillUp side width)

/-! ### Tables -/

/-- The characters of a rule: its start, what it is drawn with, where columns meet, its end. -/
structure Rule where
  first : Char
  stroke : Char
  joint : Char
  last : Char

/-- A rule across columns of the given widths. -/
def Rule.draw (rule : Rule) (widths : List Nat) : List Char :=
  rule.first ::
    (joined [rule.joint] (widths.map fun width => List.replicate (width + 2) rule.stroke) ++
      [rule.last, '\n'])

/-- One line across the columns of a row. -/
def drawLine (wall : Char) (cells : List (List Char)) : List Char :=
  wall :: (joined [wall] (cells.map fun cell => ' ' :: cell ++ [' ']) ++ [wall, '\n'])

/-- A row: its cells have the given sides and widths. -/
def drawRow (wall : Char) (columns : List (Side × Nat)) (row : List String) : List Char :=
  let cells := (columns.zip row).map fun ((side, width), cell) =>
    (width, cellLines side width cell)
  let height := (cells.map fun (_, lines) => lines.length).foldl max 0
  (List.range height).flatMap fun i =>
    drawLine wall (cells.map fun (width, lines) => lines[i]?.getD (List.replicate width ' '))

/-- A title in the middle above a table of a width; of an odd rest of spaces the greater half is
on the right. -/
def drawTitle (width : Nat) (title : String) : List Char :=
  let rest := width - title.length
  List.replicate (rest / 2) ' ' ++ title.toList ++ List.replicate (rest - rest / 2) ' ' ++ ['\n']

/-- A table with a title. -/
def drawTable (title : String) (columns : List Column) (rows : List (List String)) : String :=
  let width (i : Nat) (column : Column) : Nat :=
    ((column.heading :: rows.map fun row => row[i]?.getD "").map
      fun cell => widest (cellText cell)).foldl max 0
  let widths := columns.mapIdx width
  let sides := (columns.map Column.side).zip widths
  let total := widths.foldl (fun n width => n + width + 3) 1
  String.ofList
    (drawTitle total title ++ (Rule.mk '┏' '━' '┳' '┓').draw widths ++
      drawRow '┃' sides (columns.map Column.heading) ++ (Rule.mk '┡' '━' '╇' '┩').draw widths ++
      rows.flatMap (drawRow '│' sides) ++ (Rule.mk '└' '─' '┴' '┘').draw widths)

/-- Whether a table can be shown: the cells are marked-up texts. -/
def isShowable (rows : List (List String)) : Bool :=
  rows.all fun row => row.all fun cell => Markup.isSound cell.toList

/-- The console of the program. The lines that it is given quote texts only escaped, so all of them
can be shown, but the cells of a table can be any texts. -/
def Console.standard : Console where
  echo := plain
  green text := "\x1b[32m".toList ++ text ++ "\x1b[0m".toList
  escape := Markup.escape
  print line := some (showLine line)
  table title columns rows :=
    if isShowable rows then some (drawTable title columns rows) else none

end Stanza.Cli
