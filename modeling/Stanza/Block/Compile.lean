import Stanza.Attributes

/-!
Blocks as lines.

A block is a header, its attributes and its children, all a level further in, and a closing brace.
The path of the block is checked first, then the form of its attributes and of its children, then
the attributes are rendered and last the children in order; the first fault ends it all. The lines
do not depend on the width of the indentation nor on the level the block stands at.
-/

namespace Stanza

namespace Block

/-- The parts of the path of a block from an index on, each a text that is not empty. -/
def partTexts (path : Path) (all : List Value) (index : Nat) :
    List Value → Except Fault (List String)
  | [] => .ok []
  | part :: rest =>
      match part.nonEmptyText? with
      | some s => do return s :: (← partTexts path all (index + 1) rest)
      | none => fail (.pathPart index all) path

/-- The keyword of a block and its labels in quotes. -/
def headerOfParts (path : Path) : List String → Except Fault (List Char)
  | [] => fail .pathEmpty path
  | keyword :: labels =>
      if Text.isIdentifier keyword.toList then
        .ok (joined [' '] (keyword.toList :: labels.map fun s => Text.Quoted.quote s.toList))
      else fail (.keyword keyword) path

/-- The header of a block with the given path, and the address of the block. -/
def header (path : Path) (blockPath : Value) : Except Fault (List Char × String) :=
  match blockPath with
  | .list parts | .tuple parts => do
      let header ← headerOfParts path (← partTexts path parts 0 parts)
      return (header, dotted parts)
  | _ => fail (.pathForm blockPath.kind) path

/-- The entries of the attributes of a block. -/
def attributeEntries (path : Path) (attributes : Value) : Except Fault Entries :=
  match attributes with
  | .null => .ok []
  | .mapping entries => .ok entries
  | _ => fail (.attributesForm attributes.kind) path

/-- Whether a value can be the children of a block. -/
def areChildren : Value → Bool
  | .null | .list _ | .tuple _ | .set _ | .buffer _ => true
  | .foreign f => f.items?.isSome
  | _ => false

/-- Fails unless a value can be the children of a block. -/
def checkChildren (path : Path) (children : Value) : Except Fault Unit :=
  if areChildren children then .ok () else fail (.childrenForm children.kind) path

/-- The first of some values that are no blocks is one too many. -/
def noBlocks (path : Path) : List Value → Except Fault (List Line)
  | [] => .ok []
  | item :: _ => fail (.notBlock item.kind) path

/-- The line that separates a child from what stands before it, if the style has one. -/
def separator (style : Style) (follows : Bool) : List Line :=
  if style.blankLines && follows then [.blank] else []

mutual

/-- The lines of a block. -/
def lines (style : Style) (path : Path) : Value → Except Fault (List Line)
  | .block blockPath attributes children => do
      let (header, address) ← header path blockPath
      let here := path ++ [.text address]
      let entries ← attributeEntries here attributes
      checkChildren here children
      let body := (← Attributes.ofEntries style here entries).flatMap Rendered.lines
      let nested ← childLines style here (!body.isEmpty) children
      return .code 0 (header ++ [' ', '\x7b']) ::
        ((body ++ nested).map Line.deepen ++ [.code 0 ['\x7d']])
  | v => fail (.notBlock v.kind) path

/-- The lines of the children of a block; `follows` tells whether something stands before the
first of them. -/
def childLines (style : Style) (path : Path) (follows : Bool) : Value → Except Fault (List Line)
  | .list items => itemLines style path follows items
  | .tuple items => itemLines style path follows items
  | .set members => itemLines style path follows members
  | .buffer bytes => noBlocks path (bytes.map fun b => .int b.toNat)
  | .foreign f => noBlocks path (f.items?.getD [])
  | _ => .ok []

/-- The lines of some blocks in a row. -/
def itemLines (style : Style) (path : Path) (follows : Bool) :
    List Value → Except Fault (List Line)
  | [] => .ok []
  | item :: rest => do
      let first ← lines style path item
      return separator style follows ++ first ++ (← itemLines style path true rest)

end

/-- A block as it is written at a level. -/
def compile (format : Format) (level : Int) (node : Value) : Except Fault (List Char) := do
  return Line.writeAll format.indentWidth level (← lines format.toStyle [] node)

end Block

namespace Document

/-- The texts of some top-level blocks. -/
def blockTexts (format : Format) : List Value → Except Fault (List (List Char))
  | [] => .ok []
  | node :: rest => do
      let text ← Block.compile format 0 node
      return text :: (← blockTexts format rest)

/-- Texts of blocks as a document: a blank line between them and a line feed at the end. -/
def assemble (blocks : List (List Char)) : List Char :=
  if blocks.isEmpty then [] else joined ['\n', '\n'] blocks ++ ['\n']

/-- The document of some top-level blocks. -/
def compile (format : Format) (nodes : List Value) : Except Fault (List Char) := do
  return assemble (← blockTexts format nodes)

/-- The document of a value, which is one block or has blocks as its items. -/
def ofValue (format : Format) (nodes : Value) : Except Fault (List Char) :=
  match nodes with
  | .block .. => compile format [nodes]
  | _ =>
      match nodes.items? with
      | some items => compile format items
      | none => .error (.noItems nodes.kind)

end Document

end Stanza
