import Stanza.Number.Numeral
import Stanza.Value.Basic

/-!
Tokens of JSON texts.

A text is cut into punctuation, strings and words. A word is what stands between blanks and
punctuation; it is the name of a constant or a number. The numbers that are not finite have names.
What is no token becomes one of two tokens that stop the reader: `bad`, and `tooLong` for an
integer of more digits than can be read.
-/

namespace Stanza.Json

/-- A token. -/
inductive Token where
  | openBrace
  | closeBrace
  | openBracket
  | closeBracket
  | colon
  | comma
  | scalar (value : Value)
  | string (content : String)
  | tooLong (digits : Nat)
  | bad
  deriving Inhabited

/-- The token of a punctuation mark. -/
def Token.ofMark? : Char → Option Token
  | '\x7b' => some .openBrace
  | '\x7d' => some .closeBrace
  | '[' => some .openBracket
  | ']' => some .closeBracket
  | ':' => some .colon
  | ',' => some .comma
  | _ => none

/-- Whether a character is blank. -/
def isBlank (c : Char) : Bool := c = ' ' || c = '\t' || c = '\n' || c = '\r'

/-- The digits at the front of an exponent, after its sign. -/
def exponent? : List Char → Option (Int × List Char)
  | e :: rest =>
      if e = 'e' ∨ e = 'E' then
        let (negative, rest) := splitSign rest
        let digits := rest.takeWhile isDecimalDigit
        if digits.isEmpty then none
        else some (signedInt negative (digitsValue 10 digits), rest.dropWhile isDecimalDigit)
      else none
  | [] => none

/-- The digits of a fraction at the front of a text, if there is one. -/
def fraction? : List Char → Option (List Char × List Char)
  | '.' :: rest =>
      let digits := rest.takeWhile isDecimalDigit
      if digits.isEmpty then none else some (digits, rest.dropWhile isDecimalDigit)
  | _ => none

/-- The number whose integer digits have been read, and what follows it. -/
def number (negative : Bool) (digits rest : List Char) : Token × List Char :=
  let (fraction, afterFraction) := (fraction? rest).getD ([], rest)
  let (exponent, afterExponent) := (exponent? afterFraction).getD (0, afterFraction)
  if afterExponent.length = rest.length then
    if digits.length ≤ digitLimit then
      (.scalar (.int (signedInt negative (digitsValue 10 digits))), rest)
    else (.tooLong digits.length, [])
  else
    let x := Double.ofDecimal negative (digitsValue 10 (digits ++ fraction))
      (exponent - fraction.length)
    (.scalar (.float x), afterExponent)

/-- The token of a word that may start with a minus sign. -/
def Token.ofNumber (negative : Bool) (word : List Char) : Token :=
  let (token, rest) := match word with
    | '0' :: rest => number negative ['0'] rest
    | _ =>
        let digits := word.takeWhile isDecimalDigit
        if digits.isEmpty then (.bad, [])
        else number negative digits (word.dropWhile isDecimalDigit)
  if rest.isEmpty then token else .bad

/-- The token of a word. -/
def Token.ofWord (word : List Char) : Token :=
  if word = "null".toList then .scalar .null
  else if word = "true".toList then .scalar (.bool true)
  else if word = "false".toList then .scalar (.bool false)
  else if word = "NaN".toList then .scalar (.float .nan)
  else if word = "Infinity".toList then .scalar (.float (.infinite false))
  else if word = "-Infinity".toList then .scalar (.float (.infinite true))
  else match word with
    | '-' :: rest => Token.ofNumber true rest
    | _ => Token.ofNumber false word

/-- The character of a short escape. -/
def shortEscape? : Char → Option Char
  | '"' => some '"'
  | '\\' => some '\\'
  | '/' => some '/'
  | 'b' => some '\x08'
  | 'f' => some '\x0c'
  | 'n' => some '\n'
  | 'r' => some '\r'
  | 't' => some '\t'
  | _ => none

/-- The code unit of four hexadecimal digits. -/
def unit? (digits : List Char) : Option Nat := do
  let values ← digits.mapM digit?
  return values.foldl (fun n d => n * 16 + d) 0

/-- The character of a code that is one. -/
def char? (code : Nat) : Option Char :=
  if code < 0xd800 ∨ (0xdfff < code ∧ code < 0x110000) then some (Char.ofNat code) else none

/-- Where a reader of a text stands. -/
inductive State where
  /-- Between tokens. -/
  | ready
  /-- In a word; its characters so far, the last one first. -/
  | word (chars : List Char)
  /-- In a string. -/
  | string (chars : List Char)
  /-- In a string, after a backslash. -/
  | escape (chars : List Char)
  /-- In a string, in the digits of a code unit; `high` is the first unit of a pair. -/
  | unit (chars : List Char) (high : Option Nat) (digits : List Char)
  /-- In a string, after the first unit of a pair. -/
  | pair (chars : List Char) (high : Nat)
  /-- In a string, after the first unit of a pair and a backslash. -/
  | pairEscape (chars : List Char) (high : Nat)

namespace State

/-- The state in a string after a code unit, which may be one of a pair. -/
def afterUnit? (chars : List Char) (high : Option Nat) (code : Nat) : Option State :=
  match high with
  | none =>
      if 0xd800 ≤ code ∧ code < 0xdc00 then some (.pair chars code)
      else (char? code).map fun d => .string (d :: chars)
  | some first =>
      if 0xdc00 ≤ code ∧ code < 0xe000 then
        (char? (0x10000 + (first - 0xd800) * 0x400 + (code - 0xdc00))).map fun d =>
          .string (d :: chars)
      else none

/-- What a character does in a state: the tokens that it ends, and the state after it. -/
def step? : State → Char → Option (List Token × State)
  | .ready, c =>
      if isBlank c then some ([], .ready)
      else if c = '"' then some ([], .string [])
      else match Token.ofMark? c with
        | some mark => some ([mark], .ready)
        | none => some ([], .word [c])
  | .word chars, c =>
      if isBlank c then some ([.ofWord chars.reverse], .ready)
      else if c = '"' then some ([.ofWord chars.reverse], .string [])
      else match Token.ofMark? c with
        | some mark => some ([.ofWord chars.reverse, mark], .ready)
        | none => some ([], .word (c :: chars))
  | .string chars, c =>
      if c = '"' then some ([.string (String.ofList chars.reverse)], .ready)
      else if c = '\\' then some ([], .escape chars)
      else if c.toNat < 0x20 then none
      else some ([], .string (c :: chars))
  | .escape chars, c =>
      if c = 'u' then some ([], .unit chars none [])
      else (shortEscape? c).map fun d => ([], .string (d :: chars))
  | .unit chars high digits, c =>
      if digits.length < 3 then some ([], .unit chars high (digits ++ [c]))
      else ((unit? (digits ++ [c])).bind (afterUnit? chars high)).map fun next => ([], next)
  | .pair chars high, c => if c = '\\' then some ([], .pairEscape chars high) else none
  | .pairEscape chars high, c =>
      if c = 'u' then some ([], .unit chars (some high) []) else none

end State

/-- The tokens of a text, read from a state on. -/
def tokens (state : State) : List Char → List Token
  | [] =>
      match state with
      | .ready => []
      | .word chars => [.ofWord chars.reverse]
      | _ => [.bad]
  | c :: rest =>
      match state.step? c with
      | some (made, next) => made ++ tokens next rest
      | none => [.bad]

/-- The tokens of a text. -/
def Token.ofText (text : List Char) : List Token := tokens .ready text

end Stanza.Json
