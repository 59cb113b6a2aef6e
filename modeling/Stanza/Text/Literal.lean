import Stanza.Text.Printable
import Stanza.Text.Quoted

/-!
Text and byte literals as messages show them.

A literal is written between single quotes, or between double quotes when the text holds a single
quote and no double one. The quote in use and the backslash are escaped, and so is every character
that is not shown as itself.
-/

namespace Stanza.Text

/-- The quote around a text literal. -/
def literalQuote (text : List Char) : Char :=
  if text.contains '\'' && !text.contains '"' then '"' else '\''

/-- The escape of a character that is not shown: two, four or eight digits of its code. -/
def codeEscape (c : Char) : List Char :=
  let n := c.toNat
  if n < 0x100 then '\\' :: 'x' :: hex 2 n
  else if n < 0x10000 then '\\' :: 'u' :: hex 4 n
  else '\\' :: 'U' :: hex 8 n

/-- A character inside a literal with the given quote. -/
def literalChar (quote c : Char) : List Char :=
  if c = quote ∨ c = '\\' then ['\\', c]
  else if c = '\n' then ['\\', 'n']
  else if c = '\r' then ['\\', 'r']
  else if c = '\t' then ['\\', 't']
  else if isPrintable c then [c]
  else codeEscape c

/-- The literal of a text. -/
def literal (text : List Char) : List Char :=
  let quote := literalQuote text
  quote :: text.flatMap (literalChar quote) ++ [quote]

/-- The literal of a sequence of bytes: the byte of an ASCII character that is shown stands for
itself. -/
def bytesLiteral (bytes : List UInt8) : List Char :=
  let text := bytes.map fun b => Char.ofNat b.toNat
  let quote := literalQuote text
  let byteChar (c : Char) := if c.toNat < 0x80 then literalChar quote c else codeEscape c
  'b' :: quote :: text.flatMap byteChar ++ [quote]

end Stanza.Text
