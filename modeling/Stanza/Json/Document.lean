import Stanza.Json.Token
import Stanza.Value.Key

/-!
JSON documents.

The reader keeps the lists and mappings that are still open on a stack and goes through the tokens
once. Of two entries with the same key the last value stands at the first place. The first token
that has no place ends the reading.
-/

namespace Stanza.Json

/-- Why a text is no document. -/
inductive ReadError where
  | malformed
  /-- An integer has so many digits that it is not read. -/
  | tooLong (digits : Nat)
  deriving DecidableEq, Repr, Inhabited

/-- A list or a mapping that is still open. -/
inductive Frame where
  /-- A list; its items so far, the last one first. -/
  | list (items : List Value)
  /-- A mapping that waits for a key or its end. -/
  | mapping (entries : Entries)
  /-- A mapping that waits for the value of a key. -/
  | entry (entries : Entries) (key : String)

/-- What may come next. -/
inductive Expected where
  | value
  /-- A value, or the end of a list without items. -/
  | item
  | key
  /-- A key, or the end of a mapping without entries. -/
  | entry
  | colon (key : String)
  /-- A comma, the end of what is open, or the end of the text. -/
  | next (value : Value)

/-- Reads tokens with the frames that are open and what may come next. -/
def read : List Frame → Expected → List Token → Except ReadError Value
  | [], .next value, [] => .ok value
  | _, _, [] => .error .malformed
  | stack, .next value, token :: rest =>
      match stack, token with
      | .list items :: below, .comma => read (.list (value :: items) :: below) .value rest
      | .list items :: below, .closeBracket =>
          read below (.next (.list (value :: items).reverse)) rest
      | .entry entries key :: below, .comma =>
          read (.mapping (Entries.put (.text key) value entries) :: below) .key rest
      | .entry entries key :: below, .closeBrace =>
          read below (.next (.mapping (Entries.put (.text key) value entries))) rest
      | _, _ => .error .malformed
  | .mapping entries :: below, .colon key, .colon :: rest =>
      read (.entry entries key :: below) .value rest
  | stack, .key, .string key :: rest => read stack (.colon key) rest
  | stack, .entry, .string key :: rest => read stack (.colon key) rest
  | .mapping entries :: below, .entry, .closeBrace :: rest =>
      read below (.next (.mapping entries)) rest
  | .list items :: below, .item, .closeBracket :: rest =>
      read below (.next (.list items.reverse)) rest
  | stack, .value, token :: rest =>
      match token with
      | .scalar value => read stack (.next value) rest
      | .string content => read stack (.next (.text content)) rest
      | .openBrace => read (.mapping [] :: stack) .entry rest
      | .openBracket => read (.list [] :: stack) .item rest
      | .tooLong digits => .error (.tooLong digits)
      | _ => .error .malformed
  | stack, .item, token :: rest =>
      match token with
      | .scalar value => read stack (.next value) rest
      | .string content => read stack (.next (.text content)) rest
      | .openBrace => read (.mapping [] :: stack) .entry rest
      | .openBracket => read (.list [] :: stack) .item rest
      | .tooLong digits => .error (.tooLong digits)
      | _ => .error .malformed
  | _, _, _ :: _ => .error .malformed
termination_by structural _ _ tokens => tokens

/-- The value of a document. -/
def ofText (text : List Char) : Except ReadError Value := read [] .value (Token.ofText text)

end Stanza.Json
