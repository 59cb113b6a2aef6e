import Stanza.Number.Script
import Stanza.Text.Blank
import Stanza.Text.Lower
import Stanza.Value.Basic
import Stanza.Yaml.Tag
import Stanza.Yaml.Error

/-!
The numbers, dates and bytes that scalars denote.

A scalar marked with a tag need not have the form that its tag suggests, so each reader says what
is wrong with a text it cannot take. Underscores are dropped from numbers before they are read,
and a number can have the digits of any script, though not where the base is told or a number
that is not finite.
-/

namespace Stanza.Yaml

/-- A text without the white space around it, and with digits of ASCII only. -/
def trimmed (text : List Char) : List Char :=
  ((text.dropWhile Text.isWhite).reverse.dropWhile Text.isWhite).reverse.map asciiDigit

/-- The digits of a number in a base, without the mark of the base. -/
def withoutBaseMark (base : Nat) (text : List Char) : List Char :=
  match text with
  | '0' :: mark :: rest =>
      if (base = 2 ∧ (mark = 'b' ∨ mark = 'B')) ∨ (base = 8 ∧ (mark = 'o' ∨ mark = 'O')) ∨
          (base = 16 ∧ (mark = 'x' ∨ mark = 'X')) then rest
      else text
  | _ => text

/-- Whether a character is a digit of a base. -/
def isDigitOf (base : Nat) (c : Char) : Bool := (digit? c).any fun d => decide (d < base)

/-- The integer that digits of a base denote, with blanks around it and a sign and a mark in
front. -/
def readInt (base : Nat) (text : List Char) : Except ReadError Int :=
  let (negative, body) := splitSign (trimmed text)
  let body := withoutBaseMark base body
  let digits := body.takeWhile (isDigitOf base)
  if base = 10 ∧ digitLimit < digits.length then .error (.tooLong digits.length)
  else if digits.isEmpty ∨ digits.length < body.length then .error (.noInteger base text)
  else .ok (signedInt negative (digitsValue base digits))

/-- The number that parts in base sixty denote, the greatest first. -/
def sixtieths (parts : List Int) : Int := parts.foldl (fun n part => n * 60 + part) 0

/-- The integer of a scalar without its sign. -/
def unsignedInt (text : List Char) : Except ReadError Int :=
  match text with
  | [] => .error .emptyNumber
  | ['0'] => .ok 0
  | '0' :: 'b' :: rest => readInt 2 rest
  | '0' :: 'x' :: rest => readInt 16 rest
  | '0' :: _ => readInt 8 text
  | _ =>
      if text.contains ':' then do
        return sixtieths (← (Tag.colonFields text).mapM (readInt 10))
      else readInt 10 text

/-- The integer of a scalar. -/
def intOfScalar (text : List Char) : Except ReadError Int := do
  let digits := text.filter (· ≠ '_')
  let (negative, body) := splitSign digits
  if digits.isEmpty then .error .emptyNumber
  else
    let n ← unsignedInt body
    return if negative then -n else n

/-- The double that a text without blanks and sign denotes. -/
def unsignedFloat? (text : List Char) : Option Double :=
  if text = "inf".toList ∨ text = "infinity".toList then some (.infinite false)
  else if text = "nan".toList then some .nan
  else
    let whole := text.takeWhile isDecimalDigit
    let (fraction, rest) := match text.drop whole.length with
      | '.' :: rest => (rest.takeWhile isDecimalDigit, rest.dropWhile isDecimalDigit)
      | rest => ([], rest)
    let exponent? : Option Int := match rest with
      | [] => some 0
      | 'e' :: rest =>
          let (negative, digits) := splitSign rest
          if digits.isEmpty ∨ !digits.all isDecimalDigit then none
          else some (signedInt negative (digitsValue 10 digits))
      | _ => none
    if whole.isEmpty && fraction.isEmpty then none
    else exponent?.map fun exponent =>
      Double.ofDecimal false (digitsValue 10 (whole ++ fraction)) (exponent - fraction.length)

/-- The double that a text denotes, with blanks around it and a sign in front. -/
def readFloat (text : List Char) : Except ReadError Double :=
  let (negative, body) := splitSign (trimmed text)
  match unsignedFloat? body with
  | some x => .ok (if negative then x.negate else x)
  | none => .error (.noFloat text)

/-- The sum of parts in base sixty, the least first, from a power of the base on. A power beyond all
doubles cannot be multiplied with. -/
def sixtiethFloats (power : Int) (sum : Double) : List Double → Except ReadError Double
  | [] => .ok sum
  | part :: rest =>
      if (Double.ofInt power).isFinite then
        sixtiethFloats (power * 60) (sum.add (part.mul (.ofInt power))) rest
      else .error .hugePower

/-- The double of a scalar. -/
def floatOfScalar (text : List Char) : Except ReadError Double := do
  let digits := Text.toSmall (text.filter (· ≠ '_'))
  let (negative, body) := splitSign digits
  let signed (x : Double) : Double := if negative then x.negate else x
  if digits.isEmpty then .error .emptyNumber
  else if body = ".inf".toList then return signed (.infinite false)
  else if body = ".nan".toList then return .nan
  else if body.contains ':' then
    let parts ← (Tag.colonFields body).mapM readFloat
    return signed (← sixtiethFloats 1 (.zero false) parts.reverse)
  else return signed (← readFloat body)

/-- The truth value of a scalar. -/
def boolOfScalar (text : List Char) : Except ReadError Bool :=
  let word := String.ofList (Text.toSmall text)
  if ["yes", "true", "on"].contains word then .ok true
  else if ["no", "false", "off"].contains word then .ok false
  else .error .noTruth

/-- The microseconds of a fraction of a second: six digits count. -/
def microseconds (fraction : List Char) : Nat :=
  digitsValue 10 (fraction.take 6 ++ List.replicate (6 - fraction.length) '0')

/-- The date or the moment of some fields. -/
def calendarValue (fields : Tag.DateFields) : Except CalendarError Value :=
  let number := digitsValue 10
  let year := number fields.year
  let month := number fields.month
  let day := number fields.day
  match fields.time with
  | none => (Date.ofFields year month day).map .date
  | some (hour, minute, second, fraction) =>
      let offset := fields.zone.map fun (negative, hours, minutes) =>
        signedInt negative (number hours * 60 + number minutes)
      (Moment.ofFields year month day (number hour) (number minute) (number second)
        (microseconds fraction) offset).map .moment

/-- The date or the moment of a scalar. -/
def timestampOfScalar (text : List Char) : Except ReadError Value :=
  match Tag.dateFields? (Tag.withoutLineEnd text) with
  | none => .error .noDate
  | some fields => (calendarValue fields).mapError .calendar

/-- The six bits of a character of a binary scalar. -/
def sextet? (c : Char) : Option Nat :=
  let n := c.toNat
  if 'A' ≤ c ∧ c ≤ 'Z' then some (n - 0x41)
  else if 'a' ≤ c ∧ c ≤ 'z' then some (n - 0x61 + 26)
  else if isDecimalDigit c then some (n - 0x30 + 52)
  else if c = '+' then some 62
  else if c = '/' then some 63
  else none

/-- The bytes of a binary scalar from a place on: `filled` sextets of the current group of four
have been read, the bits they leave over are `left`, and `pads` signs of padding came last.
Characters that stand for nothing are passed over. -/
def sextetBytes (filled left pads : Nat) : List Char → Option (List UInt8)
  | [] => if filled = 0 then some [] else none
  | '=' :: rest =>
      if 2 ≤ filled ∧ 4 ≤ filled + pads + 1 then some []
      else sextetBytes filled left (if 2 ≤ filled then pads + 1 else pads) rest
  | c :: rest =>
      match sextet? c with
      | none => sextetBytes filled left pads rest
      | some bits =>
          if filled = 0 then sextetBytes 1 bits 0 rest
          else if filled = 1 then
            (sextetBytes 2 (bits % 16) 0 rest).map (UInt8.ofNat (left * 4 + bits / 16) :: ·)
          else if filled = 2 then
            (sextetBytes 3 (bits % 4) 0 rest).map (UInt8.ofNat (left * 16 + bits / 4) :: ·)
          else (sextetBytes 0 0 0 rest).map (UInt8.ofNat (left * 64 + bits) :: ·)

/-- The bytes of a binary scalar. -/
def bytesOfScalar (text : List Char) : Except ReadError (List UInt8) :=
  if text.all fun c => decide (c.toNat < 0x80) then
    match sextetBytes 0 0 0 text with
    | some bytes => .ok bytes
    | none => .error .malformed
  else .error .malformed

end Stanza.Yaml
