import Stanza.Calendar

/-!
The values of a configuration.

`Value` holds plain data as documents carry it, the expression nodes that plain data turns into,
and blocks. Authors may put any of these anywhere, so a field that ought to be a text can hold a
list: it is the encoder and the compiler that say which value is wrong, and where.
-/

namespace Stanza

/-- The kinds of value that have no place in a document but may reach the encoder. -/
inductive Foreign where
  | object
  | complex
  | decimal
  | range
  | frozenSet
  deriving DecidableEq, Repr, Inhabited

/-- A value. Mappings keep their entries in order of insertion. -/
inductive Value where
  | null
  | bool (b : Bool)
  | int (n : Int)
  | float (x : Double)
  | text (s : String)
  | bytes (bytes : List UInt8)
  /-- A row of bytes that can be changed. -/
  | buffer (bytes : List UInt8)
  | list (items : List Value)
  | tuple (items : List Value)
  | mapping (entries : List (Value × Value))
  | set (members : List Value)
  | date (d : Date)
  | moment (t : Moment)
  | foreign (f : Foreign)
  | reference (name : Value)
  | raw (expression : Value)
  | template (segments : List Value)
  | literal (value : Value)
  | sequence (elements : List Value)
  | object (entries : List (Value × Value))
  | block (path attributes children : Value)
  deriving Inhabited

/-- The entries of a mapping. -/
abbrev Entries := List (Value × Value)

/-- Where a value stands: addresses of blocks, then keys and indices. -/
abbrev Path := List Value

/-- The kind of a value, as messages name it. -/
inductive Kind where
  | null | bool | int | float | text | bytes | buffer | list | tuple | mapping | set | date | moment
  | foreign (f : Foreign)
  | reference | raw | template | literal | sequence | object | block
  deriving DecidableEq, Repr, Inhabited

namespace Foreign

/-- The name of a kind of foreign value. -/
def name : Foreign → String
  | .object => "object"
  | .complex => "complex"
  | .decimal => "Decimal"
  | .range => "range"
  | .frozenSet => "frozenset"

/-- The items of a foreign value, if it has any. -/
def items? : Foreign → Option (List Value)
  | .range => some [.int 0, .int 1]
  | .frozenSet => some [.int 1]
  | _ => none

end Foreign

namespace Kind

/-- The name of a kind. -/
def name : Kind → String
  | .null => "NoneType"
  | .bool => "bool"
  | .int => "int"
  | .float => "float"
  | .text => "str"
  | .bytes => "bytes"
  | .buffer => "bytearray"
  | .list => "list"
  | .tuple => "tuple"
  | .mapping => "dict"
  | .set => "set"
  | .date => "date"
  | .moment => "datetime"
  | .foreign f => f.name
  | .reference => "VariableReference"
  | .raw => "RawExpression"
  | .template => "TemplateNode"
  | .literal => "LiteralNode"
  | .sequence => "ListNode"
  | .object => "ObjectNode"
  | .block => "ConfigNode"

end Kind

namespace Value

/-- The kind of a value. -/
def kind : Value → Kind
  | .null => .null
  | .bool _ => .bool
  | .int _ => .int
  | .float _ => .float
  | .text _ => .text
  | .bytes _ => .bytes
  | .buffer _ => .buffer
  | .list _ => .list
  | .tuple _ => .tuple
  | .mapping _ => .mapping
  | .set _ => .set
  | .date _ => .date
  | .moment _ => .moment
  | .foreign f => .foreign f
  | .reference _ => .reference
  | .raw _ => .raw
  | .template _ => .template
  | .literal _ => .literal
  | .sequence _ => .sequence
  | .object _ => .object
  | .block .. => .block

/-- Whether a value counts as true where a yes or no is asked for: nothing, zero and what is empty
do not. -/
def truthy : Value → Bool
  | .null => false
  | .bool b => b
  | .int n => n ≠ 0
  | .float x => !x.isZero
  | .text s => !s.isEmpty
  | .bytes bs => !bs.isEmpty
  | .buffer bs => !bs.isEmpty
  | .list items => !items.isEmpty
  | .tuple items => !items.isEmpty
  | .mapping entries => !entries.isEmpty
  | .set members => !members.isEmpty
  | _ => true

/-- The items of a value in order, if it has any: those of a mapping are its keys, those of a text
its characters. -/
def items? : Value → Option (List Value)
  | .text s => some (s.toList.map fun c => .text (String.singleton c))
  | .bytes bs => some (bs.map fun b => .int b.toNat)
  | .buffer bs => some (bs.map fun b => .int b.toNat)
  | .list items => some items
  | .tuple items => some items
  | .mapping entries => some (entries.map Prod.fst)
  | .set members => some members
  | .foreign f => f.items?
  | _ => none

/-- The items of a value, if it has them in a row, so that they can be counted. -/
def row? : Value → Option (List Value)
  | .mapping _ | .set _ | .foreign .frozenSet => none
  | v => v.items?

/-- The text that a value is, if it is one. -/
def text? : Value → Option String
  | .text s => some s
  | _ => none

/-- The text that a value is, if it is one and not empty. -/
def nonEmptyText? : Value → Option String
  | .text s => if s.isEmpty then none else some s
  | _ => none

/-- The integer that a value is; the truth values count as one and zero. -/
def integer? : Value → Option Int
  | .bool b => some (if b then 1 else 0)
  | .int n => some n
  | _ => none

mutual

/-- The kind that keeps a value from being a key, if there is one: what can be changed is no key,
and neither is a row that holds such a value. -/
def unkeyed? : Value → Option Kind
  | .tuple items => someUnkeyed? items
  | .list _ => some .list
  | .mapping _ => some .mapping
  | .set _ => some .set
  | .buffer _ => some .buffer
  | .reference _ => some .reference
  | .raw _ => some .raw
  | .template _ => some .template
  | .literal _ => some .literal
  | .sequence _ => some .sequence
  | .object _ => some .object
  | .block .. => some .block
  | _ => none

/-- The first kind among some values that keeps them from being keys. -/
def someUnkeyed? : List Value → Option Kind
  | [] => none
  | item :: rest =>
      match item.unkeyed? with
      | some kind => some kind
      | none => someUnkeyed? rest

end

/-- Whether a value can be a key. -/
def isKey (v : Value) : Bool := v.unkeyed?.isNone

end Value

/-- The value of an entry whose key is a given text. -/
def Entries.find? (entries : Entries) (name : String) : Option Value :=
  match entries with
  | [] => none
  | (.text s, value) :: rest => if s = name then some value else Entries.find? rest name
  | _ :: rest => Entries.find? rest name

end Stanza
