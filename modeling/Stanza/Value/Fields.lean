import Stanza.Value.Basic

/-!
Nodes as data.

`Value.unfolded` replaces every node inside a value by the mapping of its fields, at every depth,
and leaves everything else as it is.
-/

namespace Stanza.Value

mutual

/-- A value with the fields of every node in it as a mapping. -/
def unfolded : Value → Value
  | .list items => .list (unfoldItems items)
  | .tuple items => .tuple (unfoldItems items)
  | .mapping entries => .mapping (unfoldEntries entries)
  | .reference name => .mapping [(.text "name", name.unfolded)]
  | .raw expression => .mapping [(.text "expression", expression.unfolded)]
  | .template segments => .mapping [(.text "segments", .list (unfoldItems segments))]
  | .literal value => .mapping [(.text "value", value.unfolded)]
  | .sequence elements => .mapping [(.text "elements", .list (unfoldItems elements))]
  | .object entries => .mapping [(.text "attributes", .mapping (unfoldEntries entries))]
  | .block path attributes children =>
      .mapping
        [(.text "block_path", path.unfolded), (.text "attributes", attributes.unfolded),
          (.text "children", children.unfolded)]
  | v => v

/-- Each of some items unfolded. -/
def unfoldItems : List Value → List Value
  | [] => []
  | item :: rest => item.unfolded :: unfoldItems rest

/-- The keys and values of some entries unfolded. -/
def unfoldEntries : List (Value × Value) → List (Value × Value)
  | [] => []
  | (key, value) :: rest => (key.unfolded, value.unfolded) :: unfoldEntries rest

end

end Stanza.Value
