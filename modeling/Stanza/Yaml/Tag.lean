import Stanza.Number.Numeral

/-!
Tags of YAML nodes, and the tag that a plain scalar has by its form.

`Tag.ofPlain` goes by the shape of the text: the words for the truth values and for nothing,
integers in four bases and in parts of sixty, floats, and dates. A text that has none of the
shapes is a text.
-/

namespace Stanza.Yaml

/-- What a node is said to be. -/
inductive Tag where
  | null | bool | int | float | binary | timestamp
  | omap | pairs | set | str | seq | map
  /-- The key under which another mapping is merged in. -/
  | merge
  /-- The key whose value stands for the whole mapping. -/
  | value
  /-- A tag that means nothing here. -/
  | other
  deriving DecidableEq, Repr, Inhabited

namespace Tag

/-- What the names of the known tags begin with. -/
def root : String := "tag:yaml.org,2002:"

/-- The tags that have a name, by what follows the root. -/
def named : List (String × Tag) :=
  [("null", .null), ("bool", .bool), ("int", .int), ("float", .float), ("binary", .binary),
    ("timestamp", .timestamp), ("omap", .omap), ("pairs", .pairs), ("set", .set), ("str", .str),
    ("seq", .seq), ("map", .map), ("merge", .merge), ("value", .value)]

/-- The tag of a full name. -/
def ofName (name : String) : Tag :=
  ((named.find? fun entry => root ++ entry.1 = name).map Prod.snd).getD .other

/-- The plain words for true and for false. -/
def trueWords : List String := ["yes", "Yes", "YES", "true", "True", "TRUE", "on", "On", "ON"]

@[inherit_doc trueWords]
def falseWords : List String := ["no", "No", "NO", "false", "False", "FALSE", "off", "Off", "OFF"]

/-- The plain words for nothing. -/
def nullWords : List String := ["~", "null", "Null", "NULL", ""]

/-- Whether a character is a decimal digit or an underscore. -/
def isDigitOrLine (c : Char) : Bool := isDecimalDigit c || c = '_'

/-- Whether a text is a digit from one to nine and then digits and underscores. -/
def isCount : List Char → Bool
  | c :: rest => isDecimalDigit c && c ≠ '0' && rest.all isDigitOrLine
  | [] => false

/-- Whether a text is a digit and then digits and underscores. -/
def isNumber : List Char → Bool
  | c :: rest => isDecimalDigit c && rest.all isDigitOrLine
  | [] => false

/-- Whether a text is a part of a number in parts of sixty. -/
def isSixtieth : List Char → Bool
  | [c] => isDecimalDigit c
  | [c, d] => isDecimalDigit c && decide (c ≤ '5') && isDecimalDigit d
  | _ => false

/-- The fields of a text between colons. -/
def colonFields : List Char → List (List Char)
  | [] => [[]]
  | c :: rest =>
      if c = ':' then [] :: colonFields rest
      else match colonFields rest with
        | [] => [[c]]
        | field :: others => (c :: field) :: others

/-- Whether a text without its sign has the form of an integer. -/
def isUnsignedInt : List Char → Bool
  | ['0'] => true
  | '0' :: 'b' :: rest => !rest.isEmpty && rest.all fun c => ['0', '1', '_'].contains c
  | '0' :: 'x' :: rest => !rest.isEmpty && rest.all fun c => (digit? c).isSome || c = '_'
  | '0' :: rest => rest.all fun c => decide ('0' ≤ c ∧ c ≤ '7') || c = '_'
  | text =>
      match colonFields text with
      | [] => false
      | first :: parts => isCount first && parts.all isSixtieth

/-- Whether a text is nothing, or the exponent of a float: a sign is required. -/
def isExponent : List Char → Bool
  | [] => true
  | e :: sign :: digits =>
      (e = 'e' || e = 'E') && (sign = '+' || sign = '-') && !digits.isEmpty &&
        digits.all isDecimalDigit
  | _ => false

/-- Whether a text is digits and underscores and perhaps an exponent. -/
def isFraction (text : List Char) : Bool := isExponent (text.dropWhile isDigitOrLine)

/-- Whether a text has the form of a float. -/
def isFloat (text : List Char) : Bool :=
  let body := (splitSign text).2
  let whole := body.takeWhile fun c => c ≠ '.'
  match body.drop whole.length with
  | [] => false
  | _ :: after =>
      let signed := body.length ≠ text.length
      let isName := [['i', 'n', 'f'], ['I', 'n', 'f'], ['I', 'N', 'F']].contains after ||
        (!signed && [['n', 'a', 'n'], ['N', 'a', 'N'], ['N', 'A', 'N']].contains after)
      match whole, colonFields whole with
      | [], _ => isName || (!signed && after.head?.any isDecimalDigit && isFraction after)
      | _, [_] => isNumber whole && isFraction after
      | _, first :: parts => isNumber first && parts.all isSixtieth && after.all isDigitOrLine
      | _, [] => false

/-- The digits at the front of a text, at most so many. -/
def someDigits (most : Nat) (text : List Char) : List Char :=
  (text.take most).takeWhile isDecimalDigit

/-- The fields of a date, and of the time of day after it. -/
structure DateFields where
  year : List Char
  month : List Char
  day : List Char
  /-- Hour, minute, second and fraction. -/
  time : Option (List Char × List Char × List Char × List Char)
  /-- Whether the distance from universal time is negative, with its hours and minutes. -/
  zone : Option (Bool × List Char × List Char)
  deriving DecidableEq, Repr

/-- Digits followed by a mark, and what comes after. -/
def digitsBefore (mark : Char) (least most : Nat) (text : List Char) :
    Option (List Char × List Char) :=
  let digits := someDigits most text
  match text.drop digits.length with
  | c :: rest => if c = mark ∧ least ≤ digits.length then some (digits, rest) else none
  | [] => none

/-- Drops the spaces and tabs at the front. -/
def dropBlanks (text : List Char) : List Char := text.dropWhile fun c => c = ' ' || c = '\t'

/-- The distance from universal time that a text is, or none for an empty text. -/
def zone? (text : List Char) : Option (Option (Bool × List Char × List Char)) :=
  match text, dropBlanks text with
  | [], _ => some none
  | _, ['Z'] => some (some (false, [], []))
  | _, sign :: rest =>
      if sign = '+' ∨ sign = '-' then
        let hours := someDigits 2 rest
        match hours, rest.drop hours.length with
        | [], _ => none
        | _, [] => some (some (sign = '-', hours, []))
        | _, ':' :: minutes =>
            if minutes.length = 2 ∧ minutes.all isDecimalDigit then
              some (some (sign = '-', hours, minutes))
            else none
        | _, _ => none
      else none
  | _, [] => none

/-- The fields of a date and a time of day, from the time on. -/
def timeFields? (year month day text : List Char) : Option DateFields := do
  let (hour, rest) ← digitsBefore ':' 1 2 text
  let (minute, rest) ← digitsBefore ':' 2 2 rest
  let second := someDigits 2 rest
  guard (second.length = 2)
  let rest := rest.drop 2
  let (fraction, rest) := match rest with
    | '.' :: rest => (rest.takeWhile isDecimalDigit, rest.dropWhile isDecimalDigit)
    | _ => ([], rest)
  let zone ← zone? rest
  return ⟨year, month, day, some (hour, minute, second, fraction), zone⟩

/-- The fields of a date with or without a time of day. -/
def dateFields? (text : List Char) : Option DateFields := do
  let (year, rest) ← digitsBefore '-' 4 4 text
  let (month, rest) ← digitsBefore '-' 1 2 rest
  let day := someDigits 2 rest
  guard (!day.isEmpty)
  match rest.drop day.length with
  | [] => return ⟨year, month, day, none, none⟩
  | c :: rest =>
      if c = 'T' ∨ c = 't' then timeFields? year month day rest
      else if c = ' ' ∨ c = '\t' then timeFields? year month day (dropBlanks rest)
      else none

/-- Whether a plain text has the form of a date: without a time of day, month and day have two
digits each. -/
def isTimestamp (text : List Char) : Bool :=
  match dateFields? text with
  | some fields => fields.time.isSome || (fields.month.length = 2 && fields.day.length = 2)
  | none => false

/-- A text without the line feed at its end, if it has one. -/
def withoutLineEnd (text : List Char) : List Char :=
  if text.getLast? = some '\n' then text.dropLast else text

/-- The tag that a text has by its form. -/
def ofForm (text : List Char) : Tag :=
  let word := String.ofList text
  if trueWords.contains word || falseWords.contains word then .bool
  else if isFloat text then .float
  else if isUnsignedInt (splitSign text).2 then .int
  else if word = "<<" then .merge
  else if nullWords.contains word then .null
  else if isTimestamp text then .timestamp
  else if word = "=" then .value
  else if ["!", "&", "*"].contains word then .other
  else .str

/-- The tag that a plain scalar has by its form, for which a line feed at its end does not
count. A line feed alone is a text. -/
def ofPlain (text : List Char) : Tag :=
  if text = ['\n'] then .str else ofForm (withoutLineEnd text)

end Tag

end Stanza.Yaml
