import Stanza.Value.Render

/-!
The attributes of a block.

The name of an attribute is written without quotes, so it has to be an identifier; all names are
checked before the first value is rendered.
-/

namespace Stanza.Attributes

/-- The name of an attribute as it is written. -/
def nameText (path : Path) (key : Value) : Except Fault (List Char) :=
  match key with
  | .text s =>
      if Text.isIdentifier s.toList then .ok s.toList
      else fail (.attributeName key) (path ++ [key])
  | _ => fail (.attributeName key) (path ++ [key])

/-- The names of some attributes as they are written. -/
def nameTexts (path : Path) : Entries → Except Fault (List (List Char))
  | [] => .ok []
  | (key, _) :: rest => do
      let name ← nameText path key
      return name :: (← nameTexts path rest)

/-- The assignments of some attributes, a text for each. -/
def ofEntries (style : Style) (path : Path) (entries : Entries) :
    Except Fault (List Rendered) := do
  let names ← nameTexts path entries
  return Assignment.renderAll style (← Value.renderEntries style path names entries)

/-- The assignments of attributes that may be any value: what counts as false has none. -/
def ofValue (style : Style) (path : Path) (attributes : Value) :
    Except Fault (List Rendered) :=
  if !attributes.truthy then .ok []
  else match attributes with
    | .mapping entries => ofEntries style path entries
    | _ => .error (.noEntries attributes.kind)

end Stanza.Attributes
