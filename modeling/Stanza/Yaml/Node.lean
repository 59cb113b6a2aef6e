import Stanza.Yaml.Tag
import Stanza.Yaml.Token

/-!
Nodes of YAML documents.

A node is a scalar, a sequence or a mapping with a tag. `Document.ofTokens` reads the tokens of one
document; an alias stands for the node of its anchor, which has to come before it in the document.
The readers count down a fuel that no document uses up, since each of them passes a token or ends.
-/

namespace Stanza.Yaml

/-- A node. The entries of a mapping are as written, merges included. -/
inductive Node where
  | scalar (tag : Tag) (text : List Char)
  | sequence (tag : Tag) (items : List Node)
  | mapping (tag : Tag) (entries : List (Node × Node))
  deriving Inhabited

namespace Node

/-- The tag of a node. -/
def tag : Node → Tag
  | .scalar tag _ => tag
  | .sequence tag _ => tag
  | .mapping tag _ => tag

/-- The node of a value that is left out. -/
def empty : Node := .scalar .null []

end Node

/-- Where the reading of a document has come to. -/
structure Progress where
  tokens : List Token
  /-- The anchors so far; one whose node is not complete has none. -/
  anchors : List (String × Option Node)

/-- A reader of tokens. -/
abbrev Reader := StateT Progress (Except ReadError)

namespace Reader

/-- Fails. -/
def refuse {α : Type} (error : ReadError) : Reader α := fun _ => .error error

/-- The next token, if there is one. -/
def peek : Reader (Option Token) := do
  match (← get).tokens with
  | [] => return none
  | .bad error :: _ => refuse error
  | token :: _ => return some token

/-- Passes the next token. -/
def skip : Reader Unit := modify fun p => { p with tokens := p.tokens.tail }

/-- Passes the next token if it is the given one, and tells whether it was. -/
def accept (token : Token) : Reader Bool := do
  if (← peek) = some token then
    skip
    return true
  else return false

/-- Passes the given token, which has to come next unless the condition fails. -/
def expectIf (condition : Bool) (token : Token) : Reader Unit := do
  if condition then
    if ← accept token then return else refuse .malformed

/-- Whether the next token is one of the given ones. -/
def nextIsOneOf (tokens : List Token) : Reader Bool := do
  match ← peek with
  | some token => return tokens.contains token
  | none => return false

/-- Opens an anchor, which must not have been used before. -/
def declareAnchor : Option String → Reader Unit
  | none => return
  | some name => do
      let p ← get
      if (p.anchors.lookup name).isSome then refuse .malformed
      else set { p with anchors := (name, none) :: p.anchors }

/-- Gives an anchor its node. -/
def assignAnchor (name : Option String) (node : Node) : Reader Unit :=
  match name with
  | none => return
  | some name => modify fun p => { p with anchors := (name, some node) :: p.anchors }

/-- The node that an alias stands for. -/
def aliased (name : String) : Reader Node := do
  match (← get).anchors.lookup name with
  | some (some node) => return node
  | _ => refuse .malformed

/-- What the handles of tags stand for. -/
abbrev Handles := List (String × String)

/-- The handles that need not be declared. -/
def defaultHandles : Handles := [("!", "!"), ("!!", Tag.root)]

/-- The full name of a tag. -/
def fullName (handles : Handles) (name : TagName) : Reader String :=
  match name.handle with
  | none => return name.suffix
  | some handle =>
      match handles.lookup handle with
      | some root => return root ++ name.suffix
      | none => refuse .malformed

/-- The tag at the front, if there is one. -/
def tag? : Reader (Option TagName) := do
  match ← peek with
  | some (.tag name) =>
      skip
      return some name
  | _ => return none

/-- The anchor at the front, if there is one. -/
def anchor? : Reader (Option String) := do
  match ← peek with
  | some (.anchor name) =>
      skip
      return some name
  | _ => return none

/-- The anchor and the full name of the tag of a node. They are in either order, and the name is
looked up when both have been read. -/
def properties (handles : Handles) : Reader (Option String × Option String) := do
  let before ← anchor?
  let tag ← tag?
  let anchor ← if before.isNone && tag.isSome then anchor? else pure before
  match tag with
  | some name => return (anchor, some (← fullName handles name))
  | none => return (anchor, none)

/-- The tag of a scalar: a plain one without a tag, and any one with the tag `!`, goes by its
form. -/
def scalarTag (tag : Option String) (plain : Bool) (text : List Char) : Tag :=
  match tag with
  | none => if plain then Tag.ofPlain text else .str
  | some name => if name = "!" then Tag.ofPlain text else Tag.ofName name

/-- The tag of a collection of the given sort. -/
def collectionTag (tag : Option String) (sort : Tag) : Tag :=
  match tag with
  | none => sort
  | some name => if name = "!" then sort else Tag.ofName name

/-- The node of a scalar that has properties but no text. -/
def emptyScalar (tag : Option String) : Node := .scalar (scalarTag tag true []) []

/-- In which collections a node stands. -/
inductive Place where
  /-- In a flow collection. -/
  | flow
  /-- In a block sequence, or at the top. -/
  | block
  /-- In a block mapping, where a sequence need not be indented. -/
  | entry
  deriving DecidableEq, Repr

mutual

/-- The node at the front. -/
def node (handles : Handles) : Nat → Place → Reader Node
  | 0, _ => refuse .malformed
  | fuel + 1, place => do
      match ← peek with
      | some (.alias name) =>
          skip
          aliased name
      | _ =>
          let (anchor, tag) ← properties handles
          declareAnchor anchor
          let made ← content handles fuel place anchor tag
          assignAnchor anchor made
          return made

/-- The content of a node whose properties have been read. -/
def content (handles : Handles) : Nat → Place → Option String → Option String → Reader Node
  | 0, _, _, _ => refuse .malformed
  | fuel + 1, place, anchor, tag => do
      match ← peek, place with
      | some .blockEntry, .entry =>
          return .sequence (collectionTag tag .seq) (← flatItems handles fuel)
      | some (.scalar text plain), _ =>
          skip
          return .scalar (scalarTag tag plain text) text
      | some .flowSequenceStart, _ =>
          skip
          return .sequence (collectionTag tag .seq) (← flowItems handles fuel true)
      | some .flowMappingStart, _ =>
          skip
          return .mapping (collectionTag tag .map) (← flowEntries handles fuel true)
      | some .blockSequenceStart, .block | some .blockSequenceStart, .entry =>
          skip
          return .sequence (collectionTag tag .seq) (← blockItems handles fuel)
      | some .blockMappingStart, .block | some .blockMappingStart, .entry =>
          skip
          return .mapping (collectionTag tag .map) (← blockEntries handles fuel)
      | _, _ => if anchor.isSome || tag.isSome then return emptyScalar tag else refuse .malformed

/-- The node at the front, or an empty one if one of the given tokens is. -/
def nodeUnless (handles : Handles) : Nat → Place → List Token → Reader Node
  | 0, _, _ => refuse .malformed
  | fuel + 1, place, tokens => do
      if ← nextIsOneOf tokens then return .empty else node handles fuel place

/-- The items of a block sequence. -/
def blockItems (handles : Handles) : Nat → Reader (List Node)
  | 0 => refuse .malformed
  | fuel + 1 => do
      if ← accept .blockEntry then
        let item ← nodeUnless handles fuel .block [.blockEntry, .blockEnd]
        return item :: (← blockItems handles fuel)
      else if ← accept .blockEnd then return []
      else refuse .malformed

/-- The items of a sequence that is not indented, in a block mapping. -/
def flatItems (handles : Handles) : Nat → Reader (List Node)
  | 0 => refuse .malformed
  | fuel + 1 => do
      if ← accept .blockEntry then
        let item ← nodeUnless handles fuel .block [.blockEntry, .key, .value, .blockEnd]
        return item :: (← flatItems handles fuel)
      else return []

/-- The entries of a block mapping. -/
def blockEntries (handles : Handles) : Nat → Reader (List (Node × Node))
  | 0 => refuse .malformed
  | fuel + 1 => do
      if ← accept .key then
        let key ← nodeUnless handles fuel .entry [.key, .value, .blockEnd]
        let value ←
          if ← accept .value then nodeUnless handles fuel .entry [.key, .value, .blockEnd]
          else pure .empty
        return (key, value) :: (← blockEntries handles fuel)
      else if ← accept .blockEnd then return []
      else refuse .malformed

/-- The items of a flow sequence; one with a key is a mapping of its own. -/
def flowItems (handles : Handles) : Nat → Bool → Reader (List Node)
  | 0, _ => refuse .malformed
  | fuel + 1, isFirst => do
      if ← accept .flowSequenceEnd then return []
      expectIf (!isFirst) .flowEntry
      if ← accept .key then
        let key ← nodeUnless handles fuel .flow [.value, .flowEntry, .flowSequenceEnd]
        let value ←
          if ← accept .value then nodeUnless handles fuel .flow [.flowEntry, .flowSequenceEnd]
          else pure .empty
        return .mapping .map [(key, value)] :: (← flowItems handles fuel false)
      else if ← accept .flowSequenceEnd then return []
      else
        let item ← node handles fuel .flow
        return item :: (← flowItems handles fuel false)

/-- The entries of a flow mapping. -/
def flowEntries (handles : Handles) : Nat → Bool → Reader (List (Node × Node))
  | 0, _ => refuse .malformed
  | fuel + 1, isFirst => do
      if ← accept .flowMappingEnd then return []
      expectIf (!isFirst) .flowEntry
      if ← accept .key then
        let key ← nodeUnless handles fuel .flow [.value, .flowEntry, .flowMappingEnd]
        let value ←
          if ← accept .value then nodeUnless handles fuel .flow [.flowEntry, .flowMappingEnd]
          else pure .empty
        return (key, value) :: (← flowEntries handles fuel false)
      else if ← accept .flowMappingEnd then return []
      else
        let key ← node handles fuel .flow
        return (key, .empty) :: (← flowEntries handles fuel false)

end

/-- A fuel that the node at the front does not use up: between two tokens at most four readers
are called. -/
def fuel : Reader Nat := do return 4 * (← get).tokens.length + 4

/-! ### Documents -/

/-- Passes the markers of ends of documents at the front. -/
def skipEnds : Nat → Reader Unit
  | 0 => return
  | fuel + 1 => do if ← accept .documentEnd then skipEnds fuel

/-- The handles that the directives at the front declare. Only one version may be given, and it
has to be one of the first edition. -/
def directives : Nat → Bool → Handles → Reader Handles
  | 0, _, handles => return handles
  | fuel + 1, hasVersion, handles => do
      match ← peek with
      | some (.directive (.version major)) =>
          skip
          if hasVersion || major ≠ 1 then refuse .malformed else directives fuel true handles
      | some (.directive (.handle handle root)) =>
          skip
          if (handles.lookup handle).isSome then refuse .malformed
          else directives fuel hasVersion ((handle, root) :: handles)
      | some (.directive .other) =>
          skip
          directives fuel hasVersion handles
      | _ => return handles

/-- Whether the next token is a directive. -/
def nextIsDirective : Reader Bool := do
  match ← peek with
  | some (.directive _) => return true
  | _ => return false

/-- The root of a document after its start has been passed. -/
def root (handles : Handles) : Reader Node := do
  let ends ← nextIsOneOf [.documentStart, .documentEnd]
  if ends || (← peek).isNone || (← nextIsDirective) then return .empty
  else node handles (← fuel) .block

/-- The root of a document that begins with its directives and its marker, or none at the end of
the text. -/
def explicitDocument : Reader (Option Node) := do
  skipEnds (← get).tokens.length
  if (← peek).isNone then return none
  else
    let handles ← directives (← get).tokens.length false []
    if ← accept .documentStart then return some (← root (handles ++ defaultHandles))
    else refuse .malformed

/-- The root of the next document, or none at the end of the text. Only the first document may do
without a marker. -/
def document (isFirst : Bool) : Reader (Option Node) := do
  modify fun p => { p with anchors := [] }
  let isMarked ← nextIsOneOf [.documentStart]
  let isBare := isFirst && !isMarked && (← peek).isSome && !(← nextIsDirective)
  let root ←
    if isBare then do pure (some (← node defaultHandles (← fuel) .block))
    else explicitDocument
  if root.isSome then
    let _ ← accept .documentEnd
  return root

end Reader

end Stanza.Yaml
