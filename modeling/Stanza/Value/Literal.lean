import Stanza.Value.Basic
import Stanza.Text.Literal

/-!
Values as messages show them.

`Value.literal` quotes a value so that its kind can be told; `Value.display` is the same, but a
text, a date and a decimal number stand for themselves. An integer of more than `digitLimit`
digits has no text: `Value.isWritable` tells whether a value holds one.
-/

namespace Stanza

/-- Items with a comma and a space between them. -/
def commaSeparated : List (List Char) → List Char
  | [] => []
  | [item] => item
  | item :: rest => item ++ ',' :: ' ' :: commaSeparated rest

/-- The literal of a foreign value. -/
def Foreign.literal : Foreign → List Char
  | .object => "<object object>".toList
  | .complex => "1j".toList
  | .decimal => "Decimal('1')".toList
  | .range => "range(0, 2)".toList
  | .frozenSet => "frozenset(\x7b1\x7d)".toList

namespace Value

mutual

/-- The literal of a value. -/
def literalChars : Value → List Char
  | .null => "None".toList
  | .bool b => if b then "True".toList else "False".toList
  | .int n => integerText n
  | .float x => x.literal
  | .text s => Text.literal s.toList
  | .bytes bs => Text.bytesLiteral bs
  | .buffer bs => "bytearray(".toList ++ Text.bytesLiteral bs ++ [')']
  | .list items => '[' :: commaSeparated (itemLiterals items) ++ [']']
  | .tuple [item] => '(' :: item.literalChars ++ [',', ')']
  | .tuple items => '(' :: commaSeparated (itemLiterals items) ++ [')']
  | .mapping entries => '\x7b' :: commaSeparated (entryLiterals entries) ++ ['\x7d']
  | .set [] => "set()".toList
  | .set members => '\x7b' :: commaSeparated (itemLiterals members) ++ ['\x7d']
  | .date d => d.literal
  | .moment t => t.literal
  | .foreign f => f.literal
  | .reference name => "VariableReference(name=".toList ++ name.literalChars ++ [')']
  | .raw expression => "RawExpression(expression=".toList ++ expression.literalChars ++ [')']
  | .template segments =>
      "TemplateNode(segments=[".toList ++ commaSeparated (itemLiterals segments) ++ [']', ')']
  | .literal value => "LiteralNode(value=".toList ++ value.literalChars ++ [')']
  | .sequence elements =>
      "ListNode(elements=[".toList ++ commaSeparated (itemLiterals elements) ++ [']', ')']
  | .object entries =>
      "ObjectNode(attributes=".toList ++
        '\x7b' :: commaSeparated (entryLiterals entries) ++ ['\x7d', ')']
  | .block path attributes children =>
      "ConfigNode(block_path=".toList ++ path.literalChars ++
        ", attributes=".toList ++ attributes.literalChars ++
        ", children=".toList ++ children.literalChars ++ [')']

/-- The literals of some items. -/
def itemLiterals : List Value → List (List Char)
  | [] => []
  | item :: rest => item.literalChars :: itemLiterals rest

/-- The literals of some entries. -/
def entryLiterals : List (Value × Value) → List (List Char)
  | [] => []
  | (key, value) :: rest =>
      (key.literalChars ++ ':' :: ' ' :: value.literalChars) :: entryLiterals rest

end

/-- The literal of a value. -/
def literalText (v : Value) : String := String.ofList v.literalChars

/-- A value as part of a path: a text stands for itself, a date has its standard form, and a
decimal number its digits. -/
def display : Value → String
  | .text s => s
  | .foreign .decimal => "1"
  | .date d => String.ofList d.text
  | .moment t => String.ofList t.text
  | v => v.literalText

mutual

/-- Whether every integer in a value has few enough digits to be written. -/
def isWritable : Value → Bool
  | .int n => withinDigitLimit n
  | .list items => areWritable items
  | .tuple items => areWritable items
  | .mapping entries => entriesWritable entries
  | .set members => areWritable members
  | .reference name => name.isWritable
  | .raw expression => expression.isWritable
  | .template segments => areWritable segments
  | .literal value => value.isWritable
  | .sequence elements => areWritable elements
  | .object entries => entriesWritable entries
  | .block path attributes children =>
      path.isWritable && attributes.isWritable && children.isWritable
  | _ => true

/-- Whether all of some values can be written. -/
def areWritable : List Value → Bool
  | [] => true
  | item :: rest => item.isWritable && areWritable rest

/-- Whether the keys and values of some entries can be written. -/
def entriesWritable : List (Value × Value) → Bool
  | [] => true
  | (key, value) :: rest => key.isWritable && value.isWritable && entriesWritable rest

end

end Value

/-- Values with a dot between them, as the address of a block. -/
def dotted : List Value → String
  | [] => ""
  | [part] => part.display
  | part :: rest => part.display ++ "." ++ dotted rest

/-- A path as a message points at it. -/
def Path.text : Path → String
  | [] => "<document>"
  | [part] => part.display
  | part :: rest => part.display ++ " > " ++ Path.text rest

end Stanza
