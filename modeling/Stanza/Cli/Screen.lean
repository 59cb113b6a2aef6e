import Stanza.Cli.Markup
import Stanza.Text.Cells

/-!
What a screen shows of a line.

Lines are shown without the control characters that would move the cursor, and a tab leads to the
next cell whose number is a multiple of eight. A text that is printed as it is, and not to a
terminal, loses its control sequences.
-/

namespace Stanza.Cli

/-- Whether a character moves the cursor and is not shown. -/
def movesCursor (c : Char) : Bool := [0x07, 0x08, 0x0b, 0x0c, 0x0d].contains c.toNat

/-- A text without the characters that move the cursor. -/
def unmoving (text : List Char) : List Char := text.filter fun c => !movesCursor c

/-- The spaces that a tab stands for after a piece of its line: one, and then as many as lead to
a multiple of eight. -/
def tabSpaces (before : List Char) : List Char :=
  List.replicate (1 + (8 - Text.cells (before ++ [' ']) % 8) % 8) ' '

/-- A text with its tabs as spaces, after a piece of its first line, which is given backwards. -/
def expandTabs (before : List Char) : List Char → List Char
  | [] => []
  | c :: rest =>
      if c = '\t' then
        let spaces := tabSpaces before.reverse
        spaces ++ expandTabs (spaces ++ before) rest
      else c :: expandTabs (if c = '\n' then [] else c :: before) rest

/-- A text as the console shows it. -/
def shown (text : List Char) : List Char := expandTabs [] (unmoving text)

/-- A line of marked-up text on the screen. -/
def showLine (line : List Char) : String := String.ofList (shown (Markup.render line)) ++ "\n"

/-- The control sequence whose start, an escape character and a bracket, a text follows: its
parameters, its intermediate characters and its last character. The answer is what comes after. -/
def afterControl? (text : List Char) : Option (List Char) :=
  let intermediate := text.dropWhile fun c => decide ('0' ≤ c ∧ c ≤ '?')
  match intermediate.dropWhile fun c => decide (' ' ≤ c ∧ c ≤ '/') with
  | c :: rest => if '@' ≤ c ∧ c ≤ '~' then some rest else none
  | [] => none

/-- A text without its control sequences, such as those that set a colour. -/
def plain (text : List Char) : List Char :=
  go text.length text
where
  /-- The text without the sequences that start in its first characters, as many as given. -/
  go : Nat → List Char → List Char
    | 0, text => text
    | _ + 1, [] => []
    | n + 1, c :: rest =>
        match if c = '\x1b' then rest else [] with
        | '[' :: sequence =>
            match afterControl? sequence with
            | some after => go n after
            | none => c :: go n rest
        | _ => c :: go n rest

end Stanza.Cli
