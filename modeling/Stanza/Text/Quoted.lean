/-!
Quoted strings and identifiers of the configuration language.

Inside quotes a backslash starts an escape, and a dollar or percent sign before an opening brace
starts an interpolation. `escape` writes any text so that neither happens: special characters get
their escape and the sign of `$\x7b` or `%\x7b` is doubled.
-/

namespace Stanza.Text

/-- The digits of a natural in base sixteen, with zeros in front up to a width. -/
def hex (width n : Nat) : List Char :=
  let digits := Nat.toDigits 16 n
  List.replicate (width - digits.length) '0' ++ digits

namespace Quoted

/-- The escape of one character, taken by itself. -/
def escapeChar (c : Char) : List Char :=
  if c = '"' then ['\\', '"']
  else if c = '\\' then ['\\', '\\']
  else if c = '\n' then ['\\', 'n']
  else if c = '\r' then ['\\', 'r']
  else if c = '\t' then ['\\', 't']
  else if c.toNat < 0x20 ∨ c.toNat = 0x7f then '\\' :: 'u' :: hex 4 c.toNat
  else [c]

/-- The two signs that start an interpolation when an opening brace follows. -/
def isSign (c : Char) : Bool := c = '$' || c = '%'

/-- The text between the quotes that stands for a text. -/
def escape : List Char → List Char
  | [] => []
  | c :: rest =>
      if isSign c && rest.head? == some '{' then c :: c :: escape rest
      else escapeChar c ++ escape rest

/-- A text in quotes. -/
def quote (text : List Char) : List Char := '"' :: escape text ++ ['"']

end Quoted

/-- Whether a character can start an identifier. -/
def isIdentifierStart (c : Char) : Bool := c.isAlpha || c = '_'

/-- Whether a character can follow in an identifier. -/
def isIdentifierRest (c : Char) : Bool := c.isAlphanum || c = '_' || c = '-'

/-- An identifier is an ASCII letter or underscore, then letters, digits, underscores and
hyphens. -/
def isIdentifier : List Char → Bool
  | [] => false
  | c :: rest => isIdentifierStart c && rest.all isIdentifierRest

end Stanza.Text
