import Stanza.Number.Numeral
import Stanza.Yaml.Cursor

/-!
The texts of scalars.

A quoted scalar folds its line breaks: one break between two lines is a space, and of several the
first is dropped. A plain scalar folds in the same way and ends where something else can begin. A
block scalar keeps the lines that are indented far enough, either as they are or folded, and its
header says how many of the breaks at its end count.
-/

namespace Stanza.Yaml

/-- A break between two lines of a scalar together with the breaks of the blank lines after it:
a single line feed is a space, and before blank lines it is nothing. -/
def foldBreak (first more : List Char) : List Char :=
  if first ≠ ['\n'] then first ++ more else if more.isEmpty then [' '] else more

/-! ### Quoted scalars -/

/-- The breaks of the blank lines at the front of a quoted scalar's line, and the blanks before
its text. -/
def quotedBreaks : Nat → Cursor → Except ReadError (List Char × Cursor)
  | 0, _ => .error .malformed
  | fuel + 1, p =>
      if atSeparator p.rest then .error .malformed
      else
        let p := p.skipWhile fun c => c = ' ' || c = '\t'
        match p.lineBreak with
        | ([], _) => .ok ([], p)
        | (first, p) => do
            let (more, p) ← quotedBreaks fuel p
            return (first ++ more, p)

/-- The blanks and breaks at a place in a quoted scalar, as they count in its text. -/
def quotedBlanks (p : Cursor) : Except ReadError (List Char × Cursor) :=
  let (blanks, p) := p.takeWhile fun c => c = ' ' || c = '\t'
  match p.rest, p.lineBreak with
  | [], _ => .error .malformed
  | _ :: _, ([], _) => .ok (blanks, p)
  | _ :: _, (first, p) => do
      let (more, p) ← quotedBreaks (p.rest.length + 1) p
      return (foldBreak first more, p)

/-- The character of a short escape. -/
def shortEscape? (c : Char) : Option Char :=
  [('0', '\x00'), ('a', '\x07'), ('b', '\x08'), ('t', '\t'), ('\t', '\t'), ('n', '\n'),
    ('v', '\x0b'), ('f', '\x0c'), ('r', '\r'), ('e', '\x1b'), (' ', ' '), ('"', '"'),
    ('\\', '\\'), ('/', '/'), ('N', '\x85'), ('_', '\xa0'), ('L', '\u2028'),
    ('P', '\u2029')].lookup c

/-- The number of digits of a code escape. -/
def codeLength? (c : Char) : Option Nat := [('x', 2), ('u', 4), ('U', 8)].lookup c

/-- The character of a code. A code between the two halves of the range stands for no character
of its own, and is shown as the replacement character. -/
def charOfCode (code : Nat) : Except ReadError Char :=
  if 0x7fffffff < code then .error .hugeCode
  else if 0x10ffff < code then .error .noCharacter
  else if 0xd800 ≤ code ∧ code ≤ 0xdfff then .ok '\ufffd'
  else .ok (Char.ofNat code)

/-- The text of an escape, from the character after the backslash on. -/
def escaped (p : Cursor) : Except ReadError (List Char × Cursor) :=
  match p.rest with
  | [] => .error .malformed
  | c :: rest =>
      match shortEscape? c, codeLength? c with
      | some d, _ => .ok ([d], p.next)
      | none, some length =>
          let digits := rest.take length
          if digits.length = length ∧ digits.all fun d => (digit? d).isSome then do
            return ([← charOfCode (digitsValue 16 digits)], p.skip (length + 1))
          else .error .malformed
      | none, none =>
          if isBreak c then quotedBreaks (rest.length + 1) p.lineBreak.2 else .error .malformed

/-- The text of a quoted scalar up to its closing quote, and the place after that. -/
def quotedText (quote : Char) : Nat → Cursor → Except ReadError (List Char × Cursor)
  | 0, _ => .error .malformed
  | fuel + 1, p =>
      match p.rest with
      | [] => .error .malformed
      | c :: rest =>
          if c = quote then
            if quote = '\'' ∧ rest.head? = some '\'' then do
              let (more, p) ← quotedText quote fuel (p.skip 2)
              return ('\'' :: more, p)
            else .ok ([], p.next)
          else if c = '\\' ∧ quote = '"' then do
            let (text, p) ← escaped p.next
            let (more, p) ← quotedText quote fuel p
            return (text ++ more, p)
          else if c = ' ' ∨ c = '\t' ∨ isBreak c then do
            let (text, p) ← quotedBlanks p
            let (more, p) ← quotedText quote fuel p
            return (text ++ more, p)
          else do
            let (more, p) ← quotedText quote fuel p.next
            return (c :: more, p)

/-- The text of the quoted scalar at a place. -/
def quotedScalar (p : Cursor) : Except ReadError (List Char × Cursor) :=
  match p.rest with
  | quote :: rest => quotedText quote (rest.length + 1) p.next
  | [] => .error .malformed

/-! ### Plain scalars -/

/-- Where a run of a plain scalar ends: at a blank, at a colon before one, and in a flow
collection also at a mark of the collection. -/
def plainRun (inFlow : Bool) : List Char → List Char
  | [] => []
  | c :: rest =>
      if c = ' ' ∨ c = '\t' ∨ isBreak c then []
      else if inFlow && [',', '?', '[', ']', '\x7b', '\x7d'].contains c then []
      else if c = ':' ∧ (atBlank rest ∨
          (inFlow ∧ (rest.head?.any [',', '[', ']', '\x7b', '\x7d'].contains))) then []
      else c :: plainRun inFlow rest

/-- What stands between two runs of a plain scalar. -/
structure Gap where
  /-- The blanks and breaks as they count in the text; nothing if the scalar ends here. -/
  text : List Char
  /-- Whether a line ends in the gap. -/
  crossed : Bool
  after : Cursor

/-- The breaks of the blank lines in a gap, and the spaces before the next run; nothing when a
document ends on the way. -/
def gapBreaks : Nat → Cursor → Option (List Char) × Cursor
  | 0, p => (none, p)
  | fuel + 1, p =>
      let p := p.skipSpaces
      match p.lineBreak with
      | ([], _) => (some [], p)
      | (first, p) =>
          if atSeparator p.rest then (none, p)
          else
            let (more, p) := gapBreaks fuel p
            (more.map (first ++ ·), p)

/-- The gap at a place in a plain scalar. -/
def plainGap (p : Cursor) : Gap :=
  let (blanks, p) := p.takeWhile (· = ' ')
  match p.lineBreak with
  | ([], _) => ⟨blanks, false, p⟩
  | (first, p) =>
      if atSeparator p.rest then ⟨[], true, p⟩
      else match gapBreaks (p.rest.length + 1) p with
        | (none, p) => ⟨[], true, p⟩
        | (some more, p) => ⟨foldBreak first more, true, p⟩

/-- The text of a plain scalar whose further lines have to be at a column or beyond, whether its
last gap crosses a line, and the place after it. -/
def plainText (inFlow : Bool) (column : Int) : Nat → Cursor → List Char × Bool × Cursor
  | 0, p => ([], false, p)
  | fuel + 1, p =>
      let run := plainRun inFlow p.rest
      let gap := plainGap (p.skip run.length)
      let isLast := gap.text.isEmpty || gap.after.rest.head? == some '#' ||
        (!inFlow && decide ((gap.after.column : Int) < column)) ||
        (plainRun inFlow gap.after.rest).isEmpty
      if isLast then (run, gap.crossed, gap.after)
      else
        let (more, crossed, p) := plainText inFlow column fuel gap.after
        (run ++ gap.text ++ more, crossed, p)

/-! ### Block scalars -/

/-- Which of the breaks at the end of a block scalar count. -/
inductive Chomping where
  | strip
  | clip
  | keep
  deriving DecidableEq, Repr, Inhabited

/-- The chomping that a character of a header asks for. -/
def Chomping.ofSign? : Char → Option Chomping
  | '+' => some .keep
  | '-' => some .strip
  | _ => none

/-- The additional indentation that a character of a header asks for; zero is refused. -/
def increment? (c : Char) : Option Nat :=
  if isDecimalDigit c then some ((digit? c).getD 0) else none

/-- The header of a block scalar: its chomping, and its additional indentation if one is given. -/
def blockHeader (p : Cursor) : Except ReadError (Chomping × Option Nat × Cursor) :=
  let (chomping, p) := match p.rest.head?.bind Chomping.ofSign? with
    | some chomping => (some chomping, p.next)
    | none => (none, p)
  let (increment, p) := match p.rest.head?.bind increment? with
    | some n => (some n, p.next)
    | none => (none, p)
  let (chomping, p) := match chomping, increment, p.rest.head?.bind Chomping.ofSign? with
    | none, some _, some chomping => (chomping, p.next)
    | given, _, _ => (given.getD .clip, p)
  if increment = some 0 ∨ !atSpace p.rest then .error .malformed
  else do return (chomping, increment, ← p.endLine)

/-- The breaks of the blank lines at the front of a block scalar, the greatest column of them, and
the place of its first text. -/
def blockIndentation : Nat → Nat → Cursor → List Char × Nat × Cursor
  | 0, deepest, p => ([], deepest, p)
  | fuel + 1, deepest, p =>
      let p := p.skipSpaces
      let deepest := max deepest p.column
      match p.lineBreak with
      | ([], _) => ([], deepest, p)
      | (first, p) =>
          let (more, deepest, p) := blockIndentation fuel deepest p
          (first ++ more, deepest, p)

/-- The place after the spaces up to a column. -/
def skipIndent (column : Nat) (p : Cursor) : Cursor :=
  p.skip ((p.rest.take (column - p.column)).takeWhile (· = ' ')).length

/-- The breaks of the blank lines between two lines of a block scalar. -/
def blockBreaks (column : Nat) : Nat → Cursor → List Char × Cursor
  | 0, p => ([], p)
  | fuel + 1, p =>
      let p := skipIndent column p
      match p.lineBreak with
      | ([], _) => ([], p)
      | (first, p) =>
          let (more, p) := blockBreaks column fuel p
          (first ++ more, p)

/-- Whether a line of a block scalar starts with something other than a blank. -/
def startsFlush : List Char → Bool
  | ' ' :: _ => false
  | '\t' :: _ => false
  | _ => true

/-- What is read of a block scalar: its text up to the end of its last line, the break of that
line, and the breaks of the blank lines after it. -/
structure BlockText where
  text : List Char
  last : List Char
  trailing : List Char
  after : Cursor

/-- The lines of a block scalar at a column, after the given breaks. -/
def blockLines (folded : Bool) (column : Nat) : Nat → List Char → Cursor → BlockText
  | 0, breaks, p => ⟨[], [], breaks, p⟩
  | fuel + 1, breaks, p =>
      if p.column = column ∧ !p.rest.isEmpty then
        let (line, q) := p.takeWhile fun c => !isBreak c
        let (last, q) := q.lineBreak
        let (more, q) := blockBreaks column (q.rest.length + 1) q
        if q.column = column ∧ !q.rest.isEmpty then
          let folds := folded && last == ['\n'] && startsFlush p.rest && startsFlush q.rest
          let glue := if folds then (if more.isEmpty then [' '] else []) else last
          let below := blockLines folded column fuel more q
          { below with text := breaks ++ line ++ glue ++ below.text }
        else ⟨breaks ++ line, last, more, q⟩
      else ⟨[], [], breaks, p⟩

/-- The text of the block scalar at a place inside a collection with the given indentation. -/
def blockScalar (folded : Bool) (indent : Int) (p : Cursor) :
    Except ReadError (List Char × Cursor) := do
  let (chomping, increment, p) ← blockHeader p.next
  let least := max 1 (indent + 1).toNat
  let fuel := p.rest.length + 1
  let (breaks, column, p) := match increment with
    | some n =>
        let column := least + n - 1
        let (breaks, p) := blockBreaks column fuel p
        (breaks, column, p)
    | none =>
        let (breaks, deepest, p) := blockIndentation fuel 0 p
        (breaks, max least deepest, p)
  let block := blockLines folded column fuel breaks p
  let ending := match chomping with
    | .strip => []
    | .clip => block.last
    | .keep => block.last ++ block.trailing
  return (block.text ++ ending, block.after)

end Stanza.Yaml
