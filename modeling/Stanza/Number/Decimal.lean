import Stanza.Number.Double

/-!
Decimal texts of numbers.

`Decimal.shortest` gives the fewest digits that read back as a given double, and of those the
digits nearest to it. Two texts are built on them: the literal of a double, which turns to an
exponent for very large and very small numbers, and the numeral, which never does and writes an
integral number without a fraction.
-/

namespace Stanza

/-- The decimal number `digits · 10 ^ exponent`. -/
structure Decimal where
  digits : Nat
  exponent : Int
  deriving DecidableEq, Repr, Inhabited

namespace Decimal

/-- The greatest `k` with `10 ^ k ≤ num / den`, for positive naturals. -/
def decimalExponent (num den : Nat) : Int :=
  let guess : Int := ((Nat.toDigits 10 num).length : Int) - (Nat.toDigits 10 den).length
  let reaches : Bool :=
    if 0 ≤ guess then decide (den * Nat.pow 10 guess.toNat ≤ num)
    else decide (den ≤ num * Nat.pow 10 (-guess).toNat)
  if reaches then guess else guess - 1

/-- The numbers that round to a double, as multiples of `1 / den`: from `low` to `high` around
`value`, the ends included when `closed` holds. -/
structure Interval where
  low : Nat
  value : Nat
  high : Nat
  den : Nat
  closed : Bool

/-- The interval of the positive double `mantissa · 2 ^ exponent`. Below a power of two the next
double is half as far away as above it. -/
def Interval.ofDouble (mantissa : Nat) (exponent : Int) : Interval :=
  let below := if mantissa = Nat.pow 2 52 ∧ Double.minExponent < exponent then 1 else 2
  let scale (k : Nat) := (Double.quotient k (exponent - 2)).1
  { low := scale (4 * mantissa - below)
    value := scale (4 * mantissa)
    high := scale (4 * mantissa + 2)
    den := (Double.quotient 1 (exponent - 2)).2
    closed := mantissa % 2 = 0 }

/-- The value of `digits · 10 ^ exponent` as a quotient of naturals. -/
def quotient (x : Decimal) : Nat × Nat :=
  if 0 ≤ x.exponent then (x.digits * Nat.pow 10 x.exponent.toNat, 1)
  else (x.digits, Nat.pow 10 (-x.exponent).toNat)

/-- Whether a decimal lies in an interval. -/
def Interval.contains (i : Interval) (x : Decimal) : Bool :=
  let (num, den) := x.quotient
  if i.closed then decide (i.low * den ≤ num * i.den) && decide (num * i.den ≤ i.high * den)
  else decide (i.low * den < num * i.den) && decide (num * i.den < i.high * den)

/-- Drops the zeros at the end of the digits, at most `fuel` of them. -/
def trim : Nat → Decimal → Decimal
  | 0, x => x
  | fuel + 1, x =>
      if x.digits ≠ 0 ∧ x.digits % 10 = 0 then trim fuel ⟨x.digits / 10, x.exponent + 1⟩ else x

/-- The decimal of `count` digits in the interval that is nearest to its value, if there is one.
Only the two neighbours of the value can be. -/
def ofCount? (i : Interval) (count : Nat) : Option Decimal :=
  let exponent := decimalExponent i.value i.den - count + 1
  let (num, den) :=
    if 0 ≤ exponent then (i.value, i.den * Nat.pow 10 exponent.toNat)
    else (i.value * Nat.pow 10 (-exponent).toNat, i.den)
  let below : Decimal := ⟨num / den, exponent⟩
  let above : Decimal := ⟨num / den + 1, exponent⟩
  match i.contains below, i.contains above with
  | true, true => some (if Double.roundDiv num den = num / den then below else above)
  | true, false => some below
  | false, true => some above
  | false, false => none

/-- The exact value of `mantissa · 2 ^ exponent`. -/
def exact (mantissa : Nat) (exponent : Int) : Decimal :=
  if 0 ≤ exponent then ⟨mantissa * Nat.pow 2 exponent.toNat, 0⟩
  else ⟨mantissa * Nat.pow 5 (-exponent).toNat, exponent⟩

/-- The fewest digits that read back as `mantissa · 2 ^ exponent`. Seventeen always suffice. -/
def shortest (mantissa : Nat) (exponent : Int) : Decimal :=
  let i := Interval.ofDouble mantissa exponent
  trim 20 (((List.range' 1 17).findSome? (ofCount? i)).getD (exact mantissa exponent))

/-- The digits with a point where it belongs, and never an exponent. -/
def positional (x : Decimal) : List Char :=
  let ds := Nat.toDigits 10 x.digits
  if 0 ≤ x.exponent then ds ++ List.replicate x.exponent.toNat '0'
  else
    let point : Int := ds.length + x.exponent
    if 0 < point then ds.take point.toNat ++ '.' :: ds.drop point.toNat
    else '0' :: '.' :: (List.replicate (-point).toNat '0' ++ ds)

/-- The digits with one of them before the point, and an exponent of at least two digits. -/
def scientific (x : Decimal) : List Char :=
  let ds := Nat.toDigits 10 x.digits
  let exponent : Int := ds.length + x.exponent - 1
  let mark := Nat.toDigits 10 exponent.natAbs
  let head := match ds with
    | [] => []
    | [d] => [d]
    | d :: rest => d :: '.' :: rest
  head ++ 'e' :: (if exponent < 0 then '-' else '+') ::
    (if mark.length < 2 then '0' :: mark else mark)

end Decimal

/-- A minus sign, or nothing. -/
def signText (negative : Bool) : List Char := if negative then ['-'] else []

/-- The decimal digits of an integer, after its sign. -/
def integerText (n : Int) : List Char :=
  signText (decide (n < 0)) ++ Nat.toDigits 10 n.natAbs

/-- The greatest number of digits an integer is written with or read from. -/
def digitLimit : Nat := 4300

/-- Whether an integer has few enough digits to be written. -/
def withinDigitLimit (n : Int) : Bool :=
  decide ((Nat.toDigits 10 n.natAbs).length ≤ digitLimit)

namespace Double

/-- The literal of a double: the shortest digits that read back, positional with at least one
digit after the point for decimal exponents from `-4` to `15`, and with an exponent beyond. -/
def literal : Double → List Char
  | .nan => ['n', 'a', 'n']
  | .infinite negative => signText negative ++ ['i', 'n', 'f']
  | .finite negative 0 _ _ => signText negative ++ ['0', '.', '0']
  | .finite negative m e _ =>
      let x := Decimal.shortest m e
      let point : Int := (Nat.toDigits 10 x.digits).length + x.exponent
      signText negative ++
        if point < -3 ∨ 16 < point then x.scientific
        else if 0 ≤ x.exponent then x.positional ++ ['.', '0']
        else x.positional

/-- The numeral of a finite double: an integral number exactly and without a fraction, another
one by its shortest digits, never with an exponent. -/
def numeral? : Double → Option (List Char)
  | .finite negative m e inRange =>
      match toInt? (.finite negative m e inRange) with
      | some n => some (integerText n)
      | none => some (signText negative ++ (Decimal.shortest m e).positional)
  | _ => none

end Double

end Stanza
