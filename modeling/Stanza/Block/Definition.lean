import Stanza.Value.Key
import Stanza.Fault
import Stanza.Text.Blank

/-!
Blocks from plain data.

The data form of a block is a mapping with the entry `block` and perhaps `attributes` and `child`.
A path may be given as one text of words, a single child without a list around it, and attributes
or children that are nothing can be given as null or left out. A document is one such definition,
a list of them, or a mapping whose only entry `nodes` is that list. The values of attributes are
kept as they are.
-/

namespace Stanza

namespace Definition

/-- Whether a key is one that a definition may have. -/
def isDefinitionKey : Value → Bool
  | .text s => ["block", "attributes", "child"].contains s
  | _ => false

/-- The keys of a mapping that a definition may not have, in order. -/
def unknownKeys (entries : Entries) : Except Fault (List Value) :=
  match Value.sorted? ((entries.map Prod.fst).filter fun key => !isDefinitionKey key) with
  | some keys => .ok keys
  | none => .error .mixedKeys

/-- The parts of a path of a block, given as a list or as one text of words. -/
def parts (path : Path) : Value → Except Fault (List Value)
  | .text s => .ok ((Text.words s.toList).map fun word => .text (String.ofList word))
  | .list items => .ok items
  | .tuple items => .ok items
  | v => fail (.pathDefinition v.kind) path

/-- The address by which faults inside a block are located. -/
def locator (parts : List Value) : Except Fault Value :=
  if Value.areWritable parts then
    let address := dotted parts
    .ok (.text (if address.isEmpty then "<empty block>" else address))
  else .error .unwritable

/-- The attributes of a definition. -/
def attributes (path : Path) : Option Value → Except Fault Value
  | none | some .null => .ok (.mapping [])
  | some (.mapping entries) => .ok (.mapping entries)
  | some v => fail (.attributesDefinition v.kind) path

/-- The block that the entries of a definition make, with the children that `children` finds. -/
def build (entries : Entries) (children : Path → Except Fault (List Value)) (path : Path) :
    Except Fault Value := do
  match ← unknownKeys entries with
  | [] =>
      match entries.find? "block" with
      | none => fail .pathMissing path
      | some blockPath =>
          let parts ← parts path blockPath
          let here := path ++ [← locator parts]
          let attributes ← attributes here (entries.find? "attributes")
          let nested ← children here
          return .block (.list parts) attributes (.list nested)
  | unknown => fail (.unknownKeys unknown) path

mutual

/-- The block that a definition makes. -/
def toBlock : Value → Path → Except Fault Value
  | .mapping entries, path => build entries (childrenIn entries) path
  | v, path => fail (.definitionForm v.kind) path

/-- The children that the entries of a definition list. -/
def childrenIn : List (Value × Value) → Path → Except Fault (List Value)
  | [], _ => .ok []
  | (.text key, value) :: rest, path =>
      if key = "child" then childBlocks value path else childrenIn rest path
  | _ :: rest, path => childrenIn rest path

/-- The children of a block: none, one definition, or a list of them. -/
def childBlocks : Value → Path → Except Fault (List Value)
  | .null, _ => .ok []
  | .mapping entries, path => do return [← build entries (childrenIn entries) path]
  | .list items, path => toBlocks items path
  | v, path => fail (.childDefinition v.kind) path

/-- The blocks that some definitions make. -/
def toBlocks : List Value → Path → Except Fault (List Value)
  | [], _ => .ok []
  | item :: rest, path => do
      let first ← toBlock item path
      return first :: (← toBlocks rest path)

end

/-- The definitions that a document lists, or the kind of what should have been a list of them. -/
def ofDocument : Value → Except Kind (List Value)
  | .null => .ok []
  | .list items => .ok items
  | .mapping [(.text "nodes", nodes)] =>
      if nodes.truthy then
        match nodes with
        | .list items => .ok items
        | v => .error v.kind
      else .ok []
  | .mapping entries => .ok [.mapping entries]
  | v => .error v.kind

end Definition

/-- The ways in which the data of a document fails to define blocks. -/
inductive DocumentError where
  | fault (fault : Fault)
  /-- The data is no list of definitions. -/
  | form (source : String) (got : Kind)
  deriving Inhabited

namespace DocumentError

/-- The wording for data that is no list of definitions. -/
def formMessage (source : String) (got : Kind) : String :=
  source ++ ": expected a node, a list of nodes or a 'nodes' mapping, got " ++ got.name

end DocumentError

/-- The source that data is said to come from when nothing else is known. -/
def anonymousSource : String := "<data>"

/-- The blocks that the data of a document defines. -/
def Document.blocks (source : String) (data : Value) : Except DocumentError (List Value) :=
  match Definition.ofDocument data with
  | .error got => .error (.form source got)
  | .ok definitions => (Definition.toBlocks definitions []).mapError .fault

end Stanza
