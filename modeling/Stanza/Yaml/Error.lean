import Stanza.Calendar
import Stanza.Text.Literal

/-!
What can be wrong with a YAML text.

Most faults are `malformed`: the text is not in the language. The others are faults of a scalar
that has the form of a number, a date or an escape but does not denote one.
-/

namespace Stanza.Yaml

/-- Why a text cannot be read. -/
inductive ReadError where
  | malformed
  /-- An escape denotes a code beyond the last character. -/
  | noCharacter
  /-- An escape denotes a code that is not even looked up. -/
  | hugeCode
  | noInteger (base : Nat) (digits : List Char)
  /-- An integer has so many digits that it is not read. -/
  | tooLong (digits : Nat)
  | noFloat (digits : List Char)
  /-- A number in base sixty has so many parts that a power of the base is beyond all doubles. -/
  | hugePower
  | calendar (error : CalendarError)
  /-- A number has no digits at all. -/
  | emptyNumber
  /-- A scalar marked as a truth value is none. -/
  | noTruth
  /-- A scalar marked as a date is none. -/
  | noDate
  /-- A mapping is marked as a date, and has a scalar under its value key. -/
  | mappedDate
  deriving DecidableEq, Repr, Inhabited

namespace ReadError

/-- What is said of a text that cannot be read. -/
def account : ReadError → String
  | .malformed => "the text is not in the language"
  | .noCharacter => "chr() arg not in range(0x110000)"
  | .hugeCode => "the code of an escape is too large"
  | .noInteger base digits =>
      s!"invalid literal for int() with base {base}: " ++
        String.ofList ((Text.literal digits).take 200)
  | .tooLong digits =>
      s!"Exceeds the limit (4300 digits) for integer string conversion: value has {digits}" ++
        " digits; use sys.set_int_max_str_digits() to increase the limit"
  | .noFloat digits => "could not convert string to float: " ++ String.ofList (Text.literal digits)
  | .hugePower => "int too large to convert to float"
  | .calendar error => error.message
  | .emptyNumber => "a number has no digits"
  | .noTruth => "a scalar is no truth value"
  | .noDate => "a scalar is no date"
  | .mappedDate => "a mapping is no date"

end ReadError

end Stanza.Yaml
