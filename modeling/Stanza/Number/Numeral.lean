import Stanza.Number.Decimal

/-!
Digits read as numbers.
-/

namespace Stanza

/-- The digit that a character stands for, up to base sixteen. -/
def digit? (c : Char) : Option Nat :=
  if '0' ≤ c ∧ c ≤ '9' then some (c.toNat - 0x30)
  else if 'a' ≤ c ∧ c ≤ 'f' then some (c.toNat - 0x61 + 10)
  else if 'A' ≤ c ∧ c ≤ 'F' then some (c.toNat - 0x41 + 10)
  else none

/-- Whether a character is a decimal digit. -/
def isDecimalDigit (c : Char) : Bool := decide ('0' ≤ c ∧ c ≤ '9')

/-- The number that digits of a base stand for, after the number before them. -/
def valueFrom (base : Nat) (n : Nat) : List Char → Nat
  | [] => n
  | c :: rest => valueFrom base (n * base + (digit? c).getD 0) rest

/-- The number that digits of a base stand for. -/
def digitsValue (base : Nat) (digits : List Char) : Nat := valueFrom base 0 digits

/-- An integer of the given sign and size. -/
def signedInt (negative : Bool) (n : Nat) : Int := if negative then -(n : Int) else n

/-- A sign at the front of a text, and the rest of it. -/
def splitSign : List Char → Bool × List Char
  | '-' :: rest => (true, rest)
  | '+' :: rest => (false, rest)
  | text => (false, text)

end Stanza
