import Stanza.Value.Key
import Stanza.Yaml.Node
import Stanza.Yaml.Number

/-!
The values of nodes.

A document is built level by level: the scalars in a collection are read when the collection is,
but the collections in it have to wait until all others of its level are built. So of several
faults the one reported is the least deep, and of those equally deep the first. `Built` is a value
together with that fault.

A mapping takes over the entries of the mappings that its merge keys name. They come before its
own, so that its own values win.
-/

namespace Stanza.Yaml

/-- A value, and the first fault in it with the number of levels down to it. -/
structure Built where
  value : Value
  fault : Option (Nat × ReadError)
  deriving Inhabited

namespace Built

/-- The first of two faults, the former being first at its level. -/
def first (a b : Option (Nat × ReadError)) : Option (Nat × ReadError) :=
  match a, b with
  | some (m, e), some (n, f) => if n < m then some (n, f) else some (m, e)
  | some fault, none => some fault
  | none, b => b

/-- The first of some faults. -/
def firstOf (faults : List (Option (Nat × ReadError))) : Option (Nat × ReadError) :=
  faults.foldr first none

/-- A value without a fault. -/
def ok (value : Value) : Built := ⟨value, none⟩

/-- A fault of what stands at this level. -/
def refused (error : ReadError) : Built := ⟨.null, some (0, error)⟩

/-- The value of a scalar, or the fault of it. -/
def ofExcept (r : Except ReadError Value) : Built :=
  match r with
  | .ok value => .ok value
  | .error error => refused error

/-- A collection whose contents have the given faults, a level further down. -/
def collection (value : Value) (faults : List (Option (Nat × ReadError))) : Built :=
  ⟨value, (firstOf faults).map fun (level, error) => (level + 1, error)⟩

/-- A collection that cannot be built at all. -/
def refusedCollection (value : Value) : Built := collection value [some (0, .malformed)]

/-- A collection of items. -/
def ofItems (wrap : List Value → Value) (items : List Built) : Built :=
  collection (wrap (items.map Built.value)) (items.map Built.fault)

/-- The fault of a key that is a value of the wrong kind. -/
def keyFault (key : Built) : Option (Nat × ReadError) :=
  match key.fault with
  | some (0, error) => some (0, error)
  | _ => if key.value.isKey then none else some (0, .malformed)

/-- A collection of entries, whose keys have to be such. -/
def ofEntries (wrap : Entries → Value) (entries : List (Built × Built)) : Built :=
  collection
    (wrap (Entries.ofPairs (entries.map fun (key, value) => (key.value, value.value))))
    (entries.flatMap fun (key, value) => [key.keyFault, value.fault])

end Built

namespace Node

mutual

/-- The text of a node that should be a scalar. A mapping with a value key stands for the scalar
under it, unless it is to be a date. -/
def scalarText? : Node → Option (List Char)
  | .scalar _ text => some text
  | .sequence .. => none
  | .mapping _ entries => valueText? entries

/-- The text of the scalar under the first value key. -/
def valueText? : List (Node × Node) → Option (List Char)
  | [] => none
  | (key, value) :: rest => if key.tag = .value then value.scalarText? else valueText? rest

end

/-- The value of a scalar with the given tag. -/
def scalarValue (tag : Tag) (text : List Char) : Except ReadError Value :=
  match tag with
  | .null => .ok .null
  | .bool => (boolOfScalar text).map .bool
  | .int => (intOfScalar text).map .int
  | .float => (floatOfScalar text).map .float
  | .binary => (bytesOfScalar text).map .bytes
  | .timestamp => timestampOfScalar text
  | .str => .ok (.text (String.ofList text))
  | _ => .error .malformed

/-- Whether a tag is that of a collection. -/
def isCollectionTag (tag : Tag) : Bool :=
  [Tag.omap, .pairs, .set, .seq, .map].contains tag

/-- An empty collection of a tag. -/
def emptyCollection (tag : Tag) : Value :=
  match tag with
  | .map => .mapping []
  | .set => .set []
  | _ => .list []

/-- A node that is no collection but has the given tag. -/
def ofText (tag : Tag) (text? : Option (List Char)) : Built :=
  if isCollectionTag tag then .refusedCollection (emptyCollection tag)
  else match text? with
    | some text => .ofExcept (scalarValue tag text)
    | none => .refused .malformed

/-- The key of an entry: a value key is a text like any other. -/
def keyTag (key : Node) : Tag := if key.tag = .value then .str else key.tag

/-- A mapping or a set with the given entries. -/
def buildMapping (wrap : Entries → Value)
    (entries : Option (List (Built × Built) × List (Built × Built))) : Built :=
  match entries with
  | some (merged, own) => .ofEntries wrap (merged ++ own)
  | none => .refusedCollection (wrap [])

mutual

/-- A node built with the given tag. -/
def buildAs (tag : Tag) : Node → Built
  | .scalar _ text => ofText tag (some text)
  | .sequence _ items =>
      match tag with
      | .seq => .ofItems .list (buildItems items)
      | .omap | .pairs => .ofItems .list (buildPairs items)
      | _ => ofText tag none
  | .mapping _ entries =>
      match tag with
      | .map => buildMapping .mapping (buildEntries entries)
      | .set => buildMapping (fun entries => .set (entries.map Prod.fst)) (buildEntries entries)
      | .timestamp => .refused (if (valueText? entries).isSome then .mappedDate else .malformed)
      | _ => ofText tag (valueText? entries)

/-- The items of a sequence built. -/
def buildItems : List Node → List Built
  | [] => []
  | item :: rest => buildAs item.tag item :: buildItems rest

/-- The items of a sequence of pairs built: each is a mapping with a single entry. -/
def buildPairs : List Node → List Built
  | [] => []
  | item :: rest => buildPair item :: buildPairs rest

/-- A pair: what is in it counts as being at the level of the pair itself. -/
def buildPair : Node → Built
  | .mapping _ entries => buildSingle entries
  | _ => .refused .malformed

/-- The single entry of a pair. -/
def buildSingle : List (Node × Node) → Built
  | [(key, value)] =>
      let k := buildAs key.tag key
      let v := buildAs value.tag value
      ⟨.tuple [k.value, v.value], Built.first k.fault v.fault⟩
  | _ => .refused .malformed

/-- The entries of a mapping built, those merged in first; none when something is merged that is
no mapping. -/
def buildEntries : List (Node × Node) → Option (List (Built × Built) × List (Built × Built))
  | [] => some ([], [])
  | (key, value) :: rest =>
      match key.tag with
      | .merge =>
          match mergedEntries value, buildEntries rest with
          | some merged, some (more, own) => some (merged ++ more, own)
          | _, _ => none
      | _ =>
          match buildEntries rest with
          | some (merged, own) =>
              some (merged, (buildAs (keyTag key) key, buildAs value.tag value) :: own)
          | none => none

/-- The entries that a merge key takes over from its value: a mapping, or mappings of which the
first win. -/
def mergedEntries : Node → Option (List (Built × Built))
  | .mapping _ entries => (buildEntries entries).map fun (merged, own) => merged ++ own
  | .sequence _ items => mergedItems items
  | .scalar .. => none

/-- The entries taken over from a list of mappings, those of the last one first. -/
def mergedItems : List Node → Option (List (Built × Built))
  | [] => some []
  | .mapping _ entries :: rest =>
      match buildEntries entries, mergedItems rest with
      | some (merged, own), some before => some (before ++ (merged ++ own))
      | _, _ => none
  | _ :: _ => none

end

/-- The value of a document with the given root. -/
def value (root : Node) : Except ReadError Value :=
  let built := buildAs root.tag root
  match built.fault with
  | some (_, error) => .error error
  | none => .ok built.value

end Node

end Stanza.Yaml
