import Stanza.Yaml.Error

/-!
Places in a YAML text.

A cursor is what is left to read, together with the line and the column it has come to. Lines end
in a line feed or in one of three other breaks; a byte order mark takes no column.
-/

namespace Stanza.Yaml

/-- Whether a character ends a line. -/
def isBreak (c : Char) : Bool := ['\n', '\x85', '\u2028', '\u2029'].contains c

/-- Whether a text is at its end or at the end of a line. -/
def atLineEnd : List Char → Bool
  | [] => true
  | c :: _ => isBreak c

/-- Whether a text is at its end, at the end of a line or at a space. -/
def atSpace : List Char → Bool
  | [] => true
  | c :: _ => c = ' ' || isBreak c

/-- Whether a text is at its end, at the end of a line, at a space or at a tab. -/
def atBlank : List Char → Bool
  | [] => true
  | c :: _ => c = ' ' || c = '\t' || isBreak c

/-- Whether a line begins with the marker of the start or the end of a document. -/
def atSeparator : List Char → Bool
  | '-' :: '-' :: '-' :: rest => atBlank rest
  | '.' :: '.' :: '.' :: rest => atBlank rest
  | _ => false

/-- A place in a text. -/
structure Cursor where
  /-- What is left of the text. -/
  rest : List Char
  /-- The number of characters read. -/
  index : Nat
  line : Nat
  column : Nat
  deriving DecidableEq, Repr, Inhabited

namespace Cursor

/-- The place at the front of a text. -/
def start (text : List Char) : Cursor := ⟨text, 0, 0, 0⟩

/-- The place one character on. -/
def next (p : Cursor) : Cursor :=
  match p.rest with
  | [] => p
  | c :: rest =>
      if isBreak c then ⟨rest, p.index + 1, p.line + 1, 0⟩
      else if c = '\ufeff' then ⟨rest, p.index + 1, p.line, p.column⟩
      else ⟨rest, p.index + 1, p.line, p.column + 1⟩

/-- The place so many characters on. -/
def skip : Nat → Cursor → Cursor
  | 0, p => p
  | n + 1, p => skip n p.next

/-- The characters at the front that have a property, and the place after them. -/
def takeWhile (property : Char → Bool) (p : Cursor) : List Char × Cursor :=
  let taken := p.rest.takeWhile property
  (taken, p.skip taken.length)

/-- The place after the characters at the front that have a property. -/
def skipWhile (property : Char → Bool) (p : Cursor) : Cursor := (p.takeWhile property).2

/-- The place after the spaces at the front. -/
def skipSpaces (p : Cursor) : Cursor := p.skipWhile (· = ' ')

/-- The place after the comment at the front, if there is one. -/
def skipComment (p : Cursor) : Cursor :=
  match p.rest with
  | '#' :: _ => p.skipWhile fun c => !isBreak c
  | _ => p

/-- The break at the front as it counts in a text, if there is one, and the place after it. -/
def lineBreak (p : Cursor) : List Char × Cursor :=
  match p.rest with
  | c :: _ =>
      if c = '\n' ∨ c = '\x85' then (['\n'], p.next)
      else if isBreak c then ([c], p.next)
      else ([], p)
  | [] => ([], p)

/-- The place after the blanks, the comment and the break with which a line has to end. -/
def endLine (p : Cursor) : Except ReadError Cursor :=
  let p := p.skipSpaces.skipComment
  if atLineEnd p.rest then .ok p.lineBreak.2 else .error .malformed

end Cursor

end Stanza.Yaml
