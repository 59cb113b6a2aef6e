import Stanza.Fault
import Stanza.Value.Fields
import Stanza.Value.Key

/-!
How a document is laid out.

`Format` is what the layout depends on: how far a level is indented, and the `Style`, which is
everything else. Formats come from option data. `Options.ofValue` reads the data and keeps every
value as it was given, so that the options can be shown again; `Options.format` says what they
mean. Flags can be any value and count by their truth, so only the two numbers can be wrong.
-/

namespace Stanza

/-- The part of a format that decides which lines there are and what they say. -/
structure Style where
  /-- Whether a blank line separates a nested block from what stands before it. -/
  blankLines : Bool := true
  /-- Whether the equals signs of neighbouring assignments line up. -/
  alignEquals : Bool := false
  /-- The greatest number of items of a list that stays on one line, if there is one. -/
  inlineMax : Option Nat := none
  /-- Whether the delimiters of raw expressions are checked. -/
  validate : Bool := false
  deriving DecidableEq, Repr, Inhabited

/-- A style and the number of spaces that a level is indented by. -/
structure Format extends Style where
  indentWidth : Nat := 2
  indentWidth_pos : 0 < indentWidth := by decide

/-- Whether so many items fit on one line. -/
def Style.fits (style : Style) (count : Nat) : Bool :=
  match style.inlineMax with
  | none => true
  | some limit => decide (count ≤ limit)

/-- The spaces before a line at a level; there are none at a negative level. -/
def indent (width : Nat) (level : Int) : List Char :=
  List.replicate (width * level).toNat ' '

/-- What is wrong with option data. -/
inductive OptionError where
  /-- The data has no items to take option names from. -/
  | noItems (got : Kind)
  /-- A name is a value that cannot be a key. -/
  | noKey (got : Kind)
  /-- Two unknown names cannot be put in order. -/
  | mixedNames (left right : Kind)
  /-- An unknown name is no text. -/
  | noText (got : Kind)
  /-- The data lists known names but gives them no values. -/
  | noMapping (got : Kind)
  | unknown (names : List String)
  | indentWidth (got : Value)
  | inlineMax (got : Value)
  /-- The value at fault holds an integer that has too many digits to be shown. -/
  | unwritable
  deriving Inhabited

namespace OptionError

/-- Whether the data is of a wrong kind altogether, rather than wrong in its contents. -/
def isMismatch : OptionError → Bool
  | .noItems _ | .noKey _ | .mixedNames .. | .noText _ | .noMapping _ => true
  | _ => false

/-- The name of a kind with the family it belongs to. -/
def fullName : Kind → String
  | .date => "datetime.date"
  | .moment => "datetime.datetime"
  | .foreign .decimal => "decimal.Decimal"
  | kind => kind.name

/-- The wording of an error. -/
def message : OptionError → String
  | .noItems got => "'" ++ fullName got ++ "' object is not iterable"
  | .noKey got => "unhashable type: '" ++ fullName got ++ "'"
  | .mixedNames .moment .moment => "can't compare offset-naive and offset-aware datetimes"
  | .mixedNames .date .moment | .mixedNames .moment .date =>
      "can't compare datetime.datetime to datetime.date"
  | .mixedNames left right =>
      "'<' not supported between instances of '" ++ fullName left ++ "' and '" ++
        fullName right ++ "'"
  | .noText got => "sequence item 0: expected str instance, " ++ fullName got ++ " found"
  | .noMapping got =>
      "transpiler.formatting.FormatOptions() argument after ** must be a mapping, not " ++
        fullName got
  | .unknown names => "Unknown format option(s): " ++ ", ".intercalate names
  | .indentWidth got => "indent_width must be a positive integer, got " ++ got.literalText
  | .inlineMax got =>
      "inline_list_max must be a non-negative integer or null, got " ++ got.literalText
  | .unwritable => tooLongText

/-- The error, or `unwritable` when the value at fault cannot be shown. -/
def about (got : Value) (error : OptionError) : OptionError :=
  if got.isWritable then error else .unwritable

end OptionError

/-- Format options as they were given. -/
structure Options where
  indentWidth : Nat := 2
  blankLines : Value := .bool true
  alignEquals : Value := .bool false
  inlineMax : Value := .null
  validate : Value := .bool false
  indentWidth_pos : 0 < indentWidth := by decide

namespace Options

/-- The options when none are given. -/
def standard : Options := {}

/-- The names of the options. -/
def names : List String :=
  ["indent_width", "blank_line_between_children", "align_equals", "inline_list_max",
    "validate_expressions"]

/-- Whether a value is the name of an option. -/
def isName : Value → Bool
  | .text s => names.contains s
  | _ => false

/-- The indentation that a value stands for: a positive integer, and no truth value. -/
def width? : Value → Option { n : Nat // 0 < n }
  | .int n => if h : 0 < n.toNat then some ⟨n.toNat, h⟩ else none
  | _ => none

/-- Whether a value limits the items on a line: nothing, or an integer that is not negative. -/
def isLimit : Value → Bool
  | .null => true
  | v => match v.integer? with
    | some n => decide (0 ≤ n)
    | none => false

/-- The options that the entries of a mapping set. -/
def ofEntries (entries : Entries) : Except OptionError Options :=
  let given (name : String) (default : Value) := (entries.find? name).getD default
  let width := given "indent_width" (.int 2)
  let limit := given "inline_list_max" .null
  match width? width with
  | none => .error (.about width (.indentWidth width))
  | some ⟨n, pos⟩ =>
      if isLimit limit then
        .ok
          { indentWidth := n
            blankLines := given "blank_line_between_children" (.bool true)
            alignEquals := given "align_equals" (.bool false)
            inlineMax := limit
            validate := given "validate_expressions" (.bool false)
            indentWidth_pos := pos }
      else .error (.about limit (.inlineMax limit))

/-- The complaint about names that are not those of options: all of them in order. -/
def complain (unknown : List Value) : OptionError :=
  match Value.sorted? unknown, unknown with
  | some keys, _ =>
      match keys.find? fun key => key.text?.isNone with
      | some key => .noText key.kind
      | none => .unknown (keys.filterMap Value.text?)
  | none, first :: rest =>
      match rest.find? fun key => (key.precedes? first).isNone with
      | some second => .mixedNames second.kind first.kind
      | none => .mixedNames first.kind first.kind
  | none, [] => .unknown []

/-- The options that data sets. Data that counts as false sets none. -/
def ofValue (data : Value) : Except OptionError Options :=
  if !data.truthy then .ok standard
  else match data.items? with
    | none => .error (.noItems data.kind)
    | some items =>
        match Value.someUnkeyed? items with
        | some got => .error (.noKey got)
        | none =>
            match (distinctKeys items).filter fun key => !isName key, data with
            | [], .mapping entries => ofEntries entries
            | [], _ => .error (.noMapping data.kind)
            | unknown, _ => .error (complain unknown)

/-- The format that options ask for. -/
def format (options : Options) : Format where
  blankLines := options.blankLines.truthy
  alignEquals := options.alignEquals.truthy
  inlineMax := options.inlineMax.integer?.map Int.toNat
  validate := options.validate.truthy
  indentWidth := options.indentWidth
  indentWidth_pos := options.indentWidth_pos

/-- The options as data, every one of them by its name. -/
def toEntries (options : Options) : Entries :=
  [(.text "indent_width", .int options.indentWidth),
    (.text "blank_line_between_children", options.blankLines.unfolded),
    (.text "align_equals", options.alignEquals.unfolded),
    (.text "inline_list_max", options.inlineMax),
    (.text "validate_expressions", options.validate.unfolded)]

end Options

end Stanza
