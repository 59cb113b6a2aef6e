import Stanza.Fault

/-!
A walk over blocks.

A walk visits every block before its children and in order. Each visit has the addresses of the
blocks on the way down to it. Nothing is compiled, so a block may be walked that has no valid path
or attributes that are none.
-/

namespace Stanza

/-- One stop of a walk: a block, and the way down to it. -/
structure Visit where
  /-- The addresses of the blocks on the way down, that of the visited block last. -/
  path : Path
  /-- The path of the visited block as it was given. -/
  blockPath : Value
  /-- The attributes of the visited block. -/
  attributes : Value
  /-- The children of the visited block. -/
  children : Value
  deriving Inhabited

namespace Visit

/-- The visited block. -/
def node (v : Visit) : Value := .block v.blockPath v.attributes v.children

/-- The address of the visited block. -/
def address (v : Visit) : String := ((v.path.getLast?).map Value.display).getD ""

/-- The items of a block path that can be cut. -/
def parts (v : Visit) : Except Fault (List Value) :=
  match v.blockPath.row? with
  | some items => .ok items
  | none => .error (.noSlice v.blockPath.kind)

/-- The keyword of the visited block: the first part of its path. -/
def keyword (v : Visit) : Except Fault Value := do
  match ← v.parts with
  | [] => .error .missingIndex
  | part :: _ => .ok part

/-- The labels of the visited block: all parts of its path but the first. -/
def labels (v : Visit) : Except Fault (List Value) := do return (← v.parts).tail

end Visit

namespace Block

/-- The address of a block: the parts of its path with dots between them. -/
def address (blockPath : Value) : Except Fault String :=
  match blockPath.items? with
  | none => .error (.noItems blockPath.kind)
  | some parts => if Value.areWritable parts then .ok (dotted parts) else .error .unwritable

/-- Fails at the first of some values that are no blocks. -/
def noVisits : List Value → Except Fault (List Visit)
  | [] => .ok []
  | item :: _ => .error (.noBlock item.kind)

mutual

/-- The visits of a walk over a block, with the addresses on the way down to it. -/
def walk (path : Path) : Value → Except Fault (List Visit)
  | .block blockPath attributes children => do
      let here := path ++ [.text (← address blockPath)]
      return ⟨here, blockPath, attributes, children⟩ :: (← walkChildren here children)
  | v => .error (.noBlock v.kind)

/-- The visits of a walk over the children of a block. -/
def walkChildren (path : Path) : Value → Except Fault (List Visit)
  | .list items => walkItems path items
  | .tuple items => walkItems path items
  | .set members => walkItems path members
  | v =>
      match v.items? with
      | some items => noVisits items
      | none => .error (.noItems v.kind)

/-- The visits of a walk over some blocks in a row. -/
def walkItems (path : Path) : List Value → Except Fault (List Visit)
  | [] => .ok []
  | item :: rest => do
      let first ← walk path item
      return first ++ (← walkItems path rest)

end

/-- The visits of a walk over a value that has blocks as its items. -/
def walkAll (nodes : Value) : Except Fault (List Visit) := walkChildren [] nodes

end Block

end Stanza
