import Stanza.Value.Literal

/-!
What can be wrong with a configuration.

A `CompileError` is a cause and the path to the value at fault. The cause says what is wrong in
terms of the configuration; its kind, its wording and the message with the path are functions of
it. A `Fault` is a compile error or one of the ways in which a value cannot even be looked at.
Since messages quote values, an error is raised through `fail`, which turns into the fault
`unwritable` when a quoted value holds an integer that has no text.
-/

namespace Stanza

/-- The four kinds of compile error. -/
inductive ErrorKind where
  | blockPath
  | attributeName
  | valueKind
  | expression
  deriving DecidableEq, Repr, Inhabited

/-- The words for a kind of error. -/
def ErrorKind.label : ErrorKind → String
  | .blockPath => "invalid block path"
  | .attributeName => "invalid attribute identifier"
  | .valueKind => "unsupported attribute value kind"
  | .expression => "malformed expression"

/-- What is wrong with the value at the end of a path. -/
inductive Cause where
  /-- A value stands where a block belongs. -/
  | notBlock (got : Kind)
  /-- The path of a block is no list of parts. -/
  | pathForm (got : Kind)
  | pathEmpty
  /-- A part of the path of a block is no text, or an empty one. -/
  | pathPart (index : Nat) (parts : List Value)
  /-- The first part of the path of a block is no identifier. -/
  | keyword (name : String)
  | childrenForm (got : Kind)
  /-- The definition of a block is no mapping. -/
  | definitionForm (got : Kind)
  | unknownKeys (keys : List Value)
  /-- The definition of a block has no path. -/
  | pathMissing
  | pathDefinition (got : Kind)
  | childDefinition (got : Kind)
  /-- The name of an attribute of a block is no identifier. -/
  | attributeName (key : Value)
  /-- The key of an object is no text, or an empty one. -/
  | objectKey (key : Value)
  /-- The kind of a value has no form in the configuration language. -/
  | unsupported (got : Kind)
  | notFinite (x : Double)
  /-- An integer has too many digits to be written. -/
  | tooLong
  | attributesForm (got : Kind)
  | attributesDefinition (got : Kind)
  | referenceMarker
  | rawMarker
  | templateMarker
  /-- A template marker lists something that is neither a text nor a reference. -/
  | markerSegment (got : Kind)
  /-- A template holds something that is neither a text nor a reference. -/
  | segment (got : Kind)
  /-- Something that is no part of a template is joined to one. -/
  | joined (got : Kind)
  | referenceName
  | rawText
  | emptyExpression
  | unexpectedCloser (closer : Char) (offset : Nat) (expression : String)
  | unterminated (expression : String)
  | missingCloser (closer : Char) (expression : String)
  /-- A cause in the words of whoever checks a configuration on top of this library. -/
  | stated (kind : Option ErrorKind) (detail : String)
  deriving Inhabited

/-- The text for an integer that is too long to be written. -/
def tooLongText : String :=
  "Exceeds the limit (4300 digits) for integer string conversion; " ++
    "use sys.set_int_max_str_digits() to increase the limit"

namespace Cause

/-- The kind of an error, by its cause. -/
def kind? : Cause → Option ErrorKind
  | .notBlock _ | .pathForm _ | .pathEmpty | .pathPart .. | .keyword _ | .childrenForm _ =>
      some .blockPath
  | .definitionForm _ | .unknownKeys _ | .pathMissing | .pathDefinition _ | .childDefinition _ =>
      some .blockPath
  | .attributeName _ | .objectKey _ => some .attributeName
  | .unsupported _ | .notFinite _ | .tooLong | .attributesForm _ | .attributesDefinition _ =>
      some .valueKind
  | .referenceMarker | .rawMarker | .templateMarker | .markerSegment _ => some .valueKind
  | .segment _ | .joined _ | .referenceName | .rawText => some .valueKind
  | .emptyExpression | .unexpectedCloser .. | .unterminated _ | .missingCloser .. =>
      some .expression
  | .stated kind _ => kind

/-- The literal of a text. -/
private def quoted (s : String) : String := (Value.text s).literalText

/-- The wording of a cause. -/
def detail : Cause → String
  | .notBlock got => "expected a config node, got " ++ got.name
  | .pathForm got => "block path must be a sequence of strings, got " ++ got.name
  | .pathEmpty => "block path is empty"
  | .pathPart index parts =>
      s!"element {index} of " ++ (Value.list parts).literalText ++ " must be a non-empty string"
  | .keyword name => "block keyword " ++ quoted name ++ " is not a valid HCL identifier"
  | .childrenForm got => "children must be a sequence of nodes, got " ++ got.name
  | .definitionForm got => "node must be a mapping, got " ++ got.name
  | .unknownKeys keys =>
      "unknown key(s) in node definition: " ++ ", ".intercalate (keys.map Value.display)
  | .pathMissing => "node definition has no 'block'"
  | .pathDefinition got => "'block' must be a list or a string, got " ++ got.name
  | .childDefinition got => "'child' must be a node or a list of nodes, got " ++ got.name
  | .attributeName key => key.literalText ++ " is not a valid HCL identifier"
  | .objectKey key => "object key " ++ key.literalText ++ " must be a non-empty string"
  | .unsupported got => got.name
  | .notFinite x => String.ofList x.literal ++ " has no HCL literal"
  | .tooLong => tooLongText
  | .attributesForm got => "attributes must be a mapping, got " ++ got.name
  | .attributesDefinition got => "'attributes' must be a mapping, got " ++ got.name
  | .referenceMarker => "$var expects a non-empty string"
  | .rawMarker => "$func expects a string"
  | .templateMarker => "$template expects a list of segments"
  | .markerSegment got => "template segment must be text or $var, got " ++ got.name
  | .segment got => "template segment " ++ got.name
  | .joined got => "cannot concatenate " ++ got.name ++ " into a template"
  | .referenceName => "variable reference needs a non-empty name"
  | .rawText => "raw expression must be a string"
  | .emptyExpression => "empty expression"
  | .unexpectedCloser closer offset expression =>
      "unexpected '" ++ String.singleton closer ++ s!"' at offset {offset} in " ++ quoted expression
  | .unterminated expression => "unterminated string literal in " ++ quoted expression
  | .missingCloser closer expression =>
      "missing '" ++ String.singleton closer ++ "' in " ++ quoted expression
  | .stated _ detail => detail

/-- The values that the wording of a cause quotes. -/
def quotes : Cause → List Value
  | .pathPart _ parts => parts
  | .unknownKeys keys => keys
  | .attributeName key => [key]
  | .objectKey key => [key]
  | _ => []

end Cause

/-- A cause, and the path to the value at fault. -/
structure CompileError where
  cause : Cause
  path : Path
  deriving Inhabited

namespace CompileError

/-- The kind of an error. -/
def kind? (e : CompileError) : Option ErrorKind := e.cause.kind?

/-- What is wrong, without the path. -/
def detail (e : CompileError) : String := e.cause.detail

/-- The kind of an error, the path to it, and what is wrong. -/
def message (e : CompileError) : String :=
  let label := match e.kind? with
    | some kind => kind.label
    | none => "encoding failed"
  let detail := if e.detail.isEmpty then "" else " (" ++ e.detail ++ ")"
  "EncodingError: " ++ label ++ " at " ++ Path.text e.path ++ detail

end CompileError

/-- The ways in which an operation on values fails. -/
inductive Fault where
  | compile (error : CompileError)
  /-- An integer with too many digits would have to be written into a text. -/
  | unwritable
  /-- A value without items is asked for them. -/
  | noItems (got : Kind)
  /-- A value without entries is asked for them. -/
  | noEntries (got : Kind)
  /-- A value that is no block is asked for what only a block has. -/
  | noBlock (got : Kind)
  /-- A value cannot be cut into a first item and the rest. -/
  | noSlice (got : Kind)
  /-- Keys of two sorts are to be put in order. -/
  | mixedKeys
  /-- A value that cannot be a key is used as one. -/
  | noKey (got : Kind)
  /-- A number is asked for. -/
  | noNumber (got : Kind)
  /-- A number is not finite, and has no numeral. -/
  | noNumeral (x : Double)
  /-- A number that is no float is asked whether it is integral. -/
  | noFraction (got : Kind)
  /-- Two values cannot be added. -/
  | noSum (left right : Kind)
  /-- An integer is beyond the range of floats where one of them is asked for. -/
  | tooLarge
  /-- A value without items is asked for the first of them. -/
  | missingIndex
  deriving Inhabited

/-- Raises a compile error, or the fault of quoting what has no text. -/
def fail {α : Type} (cause : Cause) (path : Path) : Except Fault α :=
  if Value.areWritable cause.quotes && Value.areWritable path then
    .error (.compile ⟨cause, path⟩)
  else .error .unwritable

theorem fail_ne_ok {α : Type} {cause : Cause} {path : Path} {a : α} : fail cause path ≠ .ok a := by
  unfold fail
  split
  · nofun
  · nofun

end Stanza
