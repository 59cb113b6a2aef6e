import Stanza.Value.Basic

/-!
Keys of mappings: which of them are equal, how they are ordered, and how entries are put in.

Numbers are equal when their values are, whatever their kind, and the truth values count as one
and zero. What is not a number at all is the same key as nothing. Moments are equal when they are
the same instant, whatever their distance from universal time; a moment for which that distance is
not known has no instant to compare with the others. Keys of one sort are ordered; between two
sorts there is no order, and `sorted?` of a mixture is `none`.
-/

namespace Stanza

/-- A quotient of an integer and a natural; an infinite one has the denominator zero. -/
structure Quantity where
  num : Int
  den : Nat
  deriving DecidableEq, Repr

namespace Quantity

/-- Whether two quantities are equal. -/
def same (a b : Quantity) : Bool :=
  if a.den = 0 ∧ b.den = 0 then a.num = b.num else a.num * b.den = b.num * a.den

/-- Whether a quantity is less than another. -/
def less (a b : Quantity) : Bool :=
  if a.den = 0 ∧ b.den = 0 then a.num < b.num else a.num * b.den < b.num * a.den

end Quantity

namespace Value

/-- The number that a value stands for, if it stands for one. -/
def quantity? : Value → Option Quantity
  | .bool b => some ⟨if b then 1 else 0, 1⟩
  | .int n => some ⟨n, 1⟩
  | .float (.infinite negative) => some ⟨if negative then -1 else 1, 0⟩
  | .float (.finite negative m e _) =>
      let (num, den) := Double.quotient m e
      some ⟨if negative then -num else num, den⟩
  | .foreign .decimal => some ⟨1, 1⟩
  | _ => none

mutual

/-- Whether two values are the same key. -/
def sameKey : Value → Value → Bool
  | .null, .null => true
  | .text s, .text t => s = t
  | .bytes s, .bytes t => s = t
  | .date d, .date e => d = e
  | .moment t, .moment u => t.isSame u
  | .foreign f, .foreign g => f = g ∧ f ≠ .object
  | .tuple xs, .tuple ys => sameKeys xs ys
  | a, b =>
      match a.quantity?, b.quantity? with
      | some p, some q => p.same q
      | _, _ => false

/-- Whether two rows of values are the same keys. -/
def sameKeys : List Value → List Value → Bool
  | [], [] => true
  | x :: xs, y :: ys => sameKey x y && sameKeys xs ys
  | _, _ => false

end

/-- Whether the numbers of one row come before those of another, in the order of dictionaries. -/
def rowPrecedes : List Nat → List Nat → Bool
  | _, [] => false
  | [], _ :: _ => true
  | x :: xs, y :: ys => if x = y then rowPrecedes xs ys else x < y

/-- The fields of a date, the greater ones first. -/
def dateRow (d : Date) : List Nat := [d.year, d.month, d.day]

mutual

/-- Whether a key comes before another, when they are of one sort. -/
def precedes? : Value → Value → Option Bool
  | .text s, .text t => some (rowPrecedes (s.toList.map Char.toNat) (t.toList.map Char.toNat))
  | .bytes s, .bytes t => some (rowPrecedes (s.map UInt8.toNat) (t.map UInt8.toNat))
  | .date d, .date e => some (rowPrecedes (dateRow d) (dateRow e))
  | .moment t, .moment u =>
      if t.offset.isSome = u.offset.isSome then some (decide (t.instant < u.instant)) else none
  | .float .nan, b => if b.quantity?.isSome then some false else none
  | a, .float .nan => if a.quantity?.isSome then some false else none
  | .foreign .frozenSet, .foreign .frozenSet => some false
  | .tuple xs, .tuple ys => tuplePrecedes? xs ys
  | a, b =>
      match a.quantity?, b.quantity? with
      | some p, some q => some (p.less q)
      | _, _ => none

/-- Whether a row of keys comes before another: the first place where they differ decides. -/
def tuplePrecedes? : List Value → List Value → Option Bool
  | _, [] => some false
  | [], _ :: _ => some true
  | x :: xs, y :: ys => if sameKey x y then tuplePrecedes? xs ys else precedes? x y

end

/-- Puts a key into its place among keys in order. -/
def insertKey? (key : Value) : List Value → Option (List Value)
  | [] => some [key]
  | x :: rest => do
      if ← precedes? key x then return key :: x :: rest
      else return x :: (← insertKey? key rest)

/-- Keys in order, when they are all of one sort. -/
def sorted? : List Value → Option (List Value)
  | [] => some []
  | key :: rest => do insertKey? key (← sorted? rest)

end Value

namespace Entries

/-- Gives a key a value: in its place if the key is there, else at the end. -/
def put (key value : Value) : Entries → Entries
  | [] => [(key, value)]
  | (k, v) :: rest =>
      if k.sameKey key then (k, value) :: rest else (k, v) :: put key value rest

/-- The mapping that pairs make when they are put in one after another: the last value of a key
stands at its first place. -/
def ofPairs (pairs : List (Value × Value)) : Entries :=
  pairs.foldl (fun entries pair => Entries.put pair.1 pair.2 entries) []

end Entries

/-- The members of a set that has been given some values one after another. -/
def distinctKeys (keys : List Value) : List Value :=
  (Entries.ofPairs (keys.map fun key => (key, .null))).map Prod.fst

end Stanza
