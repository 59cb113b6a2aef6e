import Stanza.Value.Node

/-!
The leaves of values and blocks.

A leaf is what is written without lists or objects around it: a scalar, or the node of a reference,
a raw expression or a template. A marker is a leaf too, namely the node it stands for, so that
conditions on names, raw expressions and templates are stated of leaves and hold of markers and
nodes alike.
-/

namespace Stanza

namespace Value

/-- The segment that an item of a template marker stands for. -/
def segment : Value → Value
  | .mapping [(.text _, payload)] => .reference payload
  | v => v

/-- The segments that the payload of a template marker stands for. -/
def segments : Value → List Value
  | .list items => items.map segment
  | .tuple items => items.map segment
  | _ => []

end Value

/-- The node that a marker makes of its payload. -/
def Marker.node (payload : Value) : Marker → Value
  | .reference => .reference payload
  | .raw => .raw payload
  | .template => .template (Template.merge payload.segments)

namespace Value

mutual

/-- The leaves of a value in order. -/
def leaves : Value → List Value
  | .list items => itemLeaves items
  | .tuple items => itemLeaves items
  | .sequence elements => itemLeaves elements
  | .mapping entries =>
      match Marker.ofEntries? entries with
      | some (marker, payload) => [marker.node payload]
      | none => entryLeaves entries
  | .object entries => entryLeaves entries
  | v => [v]

/-- The leaves of some items. -/
def itemLeaves : List Value → List Value
  | [] => []
  | item :: rest => item.leaves ++ itemLeaves rest

/-- The leaves of the values of some entries. -/
def entryLeaves : List (Value × Value) → List Value
  | [] => []
  | (_, value) :: rest => value.leaves ++ entryLeaves rest

end

end Value

namespace Block

/-- The leaves of the attributes of a block. -/
def attributeLeaves : Value → List Value
  | .mapping entries => Value.entryLeaves entries
  | _ => []

mutual

/-- The leaves of a block and of its children in order. -/
def leaves : Value → List Value
  | .block _ attributes children => attributeLeaves attributes ++ childLeaves children
  | _ => []

/-- The leaves of the children of a block. -/
def childLeaves : Value → List Value
  | .list items => itemLeaves items
  | .tuple items => itemLeaves items
  | .set members => itemLeaves members
  | _ => []

/-- The leaves of some blocks. -/
def itemLeaves : List Value → List Value
  | [] => []
  | item :: rest => leaves item ++ itemLeaves rest

end

end Block

end Stanza
