import Stanza.Yaml.Build

/-!
YAML documents.

A text holds any number of documents. They are read one after another, and each is built before
the next is looked at, so a fault of one comes before a fault of a later one.
-/

namespace Stanza.Yaml

/-- The values of the documents from a place on. -/
def documentsFrom : Nat → Bool → Progress → Except ReadError (List Value)
  | 0, _, _ => .ok []
  | fuel + 1, isFirst, progress => do
      match ← (Reader.document isFirst).run progress with
      | (none, _) => return []
      | (some root, progress) =>
          let value ← root.value
          return value :: (← documentsFrom fuel false progress)

/-- The values of all documents of a text. -/
def documents (text : List Char) : Except ReadError (List Value) :=
  let tokens := Token.ofText text
  documentsFrom (tokens.length + 2) true ⟨tokens, []⟩

/-- Fails unless the text ends, perhaps after more markers of ends. -/
def expectEnd : Reader Unit := do
  Reader.skipEnds (← get).tokens.length
  match ← Reader.peek with
  | none => return
  | some _ =>
      let _ ← Reader.directives (← get).tokens.length false []
      Reader.refuse .malformed

/-- The root of the only document of a text. -/
def onlyRoot : Reader (Option Node) := do
  match ← Reader.document true with
  | none => return none
  | some root =>
      expectEnd
      return some root

/-- The value of the only document of a text; a text without one has no value. -/
def document (text : List Char) : Except ReadError Value := do
  match ← onlyRoot.run ⟨Token.ofText text, []⟩ with
  | (some root, _) => root.value
  | (none, _) => return .null

end Stanza.Yaml
