import Stanza.Number.Numeral
import Stanza.Text.Encoding
import Stanza.Yaml.Cursor

/-!
Names in a YAML text: anchors, tags and directives.

A tag is written with a handle that a document can declare, and a suffix; or verbatim; or it is a
lone exclamation mark. In a suffix a percent sign and two digits stand for a byte.
-/

namespace Stanza.Yaml

/-- Whether a character can stand in the name of an anchor, a handle or a directive. -/
def isNameChar (c : Char) : Bool := c.isAlphanum || c = '-' || c = '_'

/-- Whether a character can stand in the suffix of a tag. -/
def isTagChar (c : Char) : Bool := c.isAlphanum || "-;/?:@&=+$,_.!~*'()[]%".toList.contains c

/-- The name of the anchor or alias at a place. -/
def anchorName (p : Cursor) : Except ReadError (String × Cursor) :=
  let (name, p) := p.next.takeWhile isNameChar
  let ends := atBlank p.rest || p.rest.head?.any "?:,]\x7d%@\x60".toList.contains
  if name.isEmpty || !ends then .error .malformed else .ok (String.ofList name, p)

/-- The bytes that the escapes at the front of a text stand for, and how many characters they
take. -/
def escapedBytes : List Char → Except ReadError (List UInt8 × Nat)
  | '%' :: a :: b :: rest =>
      match digit? a, digit? b with
      | some high, some low => do
          let (bytes, length) ← escapedBytes rest
          return (UInt8.ofNat (high * 16 + low) :: bytes, length + 3)
      | _, _ => .error .malformed
  | '%' :: _ => .error .malformed
  | _ => .ok ([], 0)

/-- The characters of the suffix of a tag at a place. -/
def tagChars : Nat → Cursor → Except ReadError (List Char × Cursor)
  | 0, _ => .error .malformed
  | fuel + 1, p =>
      let (plain, p) := p.takeWhile fun c => isTagChar c && c ≠ '%'
      match p.rest with
      | '%' :: _ => do
          let (bytes, length) ← escapedBytes p.rest
          match Text.decode bytes with
          | none => .error .malformed
          | some decoded =>
              let (more, p) ← tagChars fuel (p.skip length)
              return (plain ++ decoded ++ more, p)
      | _ => .ok (plain, p)

/-- The suffix of a tag at a place, which has to have a character. -/
def tagSuffix (p : Cursor) : Except ReadError (String × Cursor) :=
  if p.rest.head?.any isTagChar then do
    let (chars, p) ← tagChars (p.rest.length + 1) p
    return (String.ofList chars, p)
  else .error .malformed

/-- The handle of a tag at a place: a mark, or a name between two of them. -/
def tagHandle (p : Cursor) : Except ReadError (String × Cursor) :=
  match p.rest with
  | '!' :: ' ' :: _ => .ok ("!", p.next)
  | '!' :: rest =>
      let name := rest.takeWhile isNameChar
      if (rest.drop name.length).head? = some '!' then
        .ok (String.ofList ('!' :: name ++ ['!']), p.skip (name.length + 2))
      else .error .malformed
  | _ => .error .malformed

/-- A tag as it is written: its handle, if it has one, and its suffix. -/
structure TagName where
  handle : Option String
  suffix : String
  deriving DecidableEq, Repr, Inhabited

/-- Whether another mark follows the one of a tag before the next space. -/
def hasHandle (rest : List Char) : Bool :=
  (rest.takeWhile fun c => c ≠ ' ' && !isBreak c).contains '!'

/-- The tag whose mark stands before a place. -/
def tagAfterMark (start p : Cursor) : Except ReadError (TagName × Cursor) :=
  match p.rest with
  | '<' :: _ => do
      let (suffix, p) ← tagSuffix p.next
      match p.rest with
      | '>' :: _ => return (⟨none, suffix⟩, p.next)
      | _ => .error .malformed
  | rest =>
      if atBlank rest then .ok (⟨none, "!"⟩, p)
      else if hasHandle rest then do
        let (handle, p) ← tagHandle start
        let (suffix, p) ← tagSuffix p
        return (⟨some handle, suffix⟩, p)
      else do
        let (suffix, p) ← tagSuffix p
        return (⟨some "!", suffix⟩, p)

/-- The tag at a place. A space has to follow it. -/
def tagName (p : Cursor) : Except ReadError (TagName × Cursor) := do
  let (tag, p) ← tagAfterMark p p.next
  if atSpace p.rest then return (tag, p) else .error .malformed

/-- A directive before a document. -/
inductive Directive where
  /-- The version of the language; only the major number matters. -/
  | version (major : Nat)
  /-- What a tag handle stands for. -/
  | handle (handle root : String)
  | other
  deriving DecidableEq, Repr, Inhabited

/-- The number at a place. -/
def versionNumber (p : Cursor) : Except ReadError (Nat × Cursor) :=
  let (digits, p) := p.takeWhile isDecimalDigit
  if digits.isEmpty then .error .malformed
  else if digitLimit < digits.length then .error (.tooLong digits.length)
  else .ok (digitsValue 10 digits, p)

/-- The version of a directive at a place. -/
def version (p : Cursor) : Except ReadError (Directive × Cursor) := do
  let (major, p) ← versionNumber p.skipSpaces
  match p.rest with
  | '.' :: _ =>
      let (_, p) ← versionNumber p.next
      if atSpace p.rest then return (.version major, p) else .error .malformed
  | _ => .error .malformed

/-- The handle of a directive at a place and what it stands for. -/
def handleDirective (p : Cursor) : Except ReadError (Directive × Cursor) := do
  let (handle, p) ← tagHandle p.skipSpaces
  match p.rest with
  | ' ' :: _ =>
      let (root, p) ← tagSuffix p.skipSpaces
      if atSpace p.rest then return (.handle handle root, p) else .error .malformed
  | _ => .error .malformed

/-- The directive at a place. -/
def directive (p : Cursor) : Except ReadError (Directive × Cursor) := do
  let (name, p) := p.next.takeWhile isNameChar
  if name.isEmpty || !atSpace p.rest then .error .malformed
  else
    let (directive, p) ←
      if name = "YAML".toList then version p
      else if name = "TAG".toList then handleDirective p
      else .ok (.other, p.skipWhile fun c => !isBreak c)
    return (directive, ← p.endLine)

end Stanza.Yaml
