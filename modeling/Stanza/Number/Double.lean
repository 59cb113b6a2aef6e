/-!
Double-precision numbers as exact dyadic values.

A finite `Double` is a sign, a mantissa and a binary exponent that are in range; nothing here goes
through the machine's floating point unit, so every operation is a computation on naturals.
`ofRatio` is the one place where a real number is rounded: to the nearest double, ties to the even
mantissa. What it rounds to is in range or beyond all doubles (`inRange_rounded`).
-/

namespace Stanza

namespace Double

/-- The exponent of the subnormal numbers, the least there is. -/
def minExponent : Int := -1074

/-- The greatest exponent of a finite number. -/
def maxExponent : Int := 971

/-- A mantissa has at most 53 bits and uses the leading one unless the exponent is already the
least. -/
def InRange (mantissa : Nat) (exponent : Int) : Prop :=
  mantissa < Nat.pow 2 53 ∧ minExponent ≤ exponent ∧ exponent ≤ maxExponent ∧
    (Nat.pow 2 52 ≤ mantissa ∨ exponent = minExponent)

instance (mantissa : Nat) (exponent : Int) : Decidable (InRange mantissa exponent) :=
  inferInstanceAs (Decidable (_ ∧ _ ∧ _ ∧ _))

end Double

/-- A double-precision number. The finite one of mantissa `m` and exponent `e` is `±m · 2 ^ e`. -/
inductive Double where
  | nan
  | infinite (negative : Bool)
  | finite (negative : Bool) (mantissa : Nat) (exponent : Int)
      (inRange : Double.InRange mantissa exponent)
  deriving DecidableEq, Repr, Inhabited

namespace Double

/-- Zero, with a sign. -/
def zero (negative : Bool) : Double := .finite negative 0 minExponent (by decide)

/-- The value of `m · 2 ^ e` as a quotient of naturals. -/
def quotient (mantissa : Nat) (exponent : Int) : Nat × Nat :=
  if 0 ≤ exponent then (mantissa * Nat.pow 2 exponent.toNat, 1)
  else (mantissa, Nat.pow 2 (-exponent).toNat)

theorem quotient_den_pos (mantissa : Nat) (exponent : Int) :
    0 < (quotient mantissa exponent).2 := by
  unfold quotient
  split
  · exact Nat.one_pos
  · exact Nat.pow_pos (by decide)

/-! ### Rounding -/

/-- The natural nearest to `num / den`; of two equally near, the even one. -/
def roundDiv (num den : Nat) : Nat :=
  let q := num / den
  let r := num % den
  if 2 * r < den then q
  else if den < 2 * r then q + 1
  else if q % 2 = 0 then q
  else q + 1

theorem le_roundDiv {num den n : Nat} (den_pos : 0 < den) (h : n * den ≤ num) :
    n ≤ roundDiv num den := by
  have hquotient : n ≤ num / den := (Nat.le_div_iff_mul_le den_pos).mpr h
  unfold roundDiv
  grind

theorem roundDiv_le {num den n : Nat} (den_pos : 0 < den) (h : num < n * den) :
    roundDiv num den ≤ n := by
  have hquotient : num / den < n := (Nat.div_lt_iff_lt_mul den_pos).mpr h
  unfold roundDiv
  grind

/-- The number `num / den` divided by `2 ^ exponent`, as a quotient of naturals. -/
def scale (num den : Nat) (exponent : Int) : Nat × Nat :=
  if 0 ≤ exponent then (num, den * Nat.pow 2 exponent.toNat)
  else (num * Nat.pow 2 (-exponent).toNat, den)

/-- Whether `2 ^ exponent` is at most `num / den`. -/
def reaches (num den : Nat) (exponent : Int) : Bool :=
  decide ((scale num den exponent).2 ≤ (scale num den exponent).1)

/-- The greatest `k` with `2 ^ k ≤ num / den`, for positive naturals. -/
def binaryExponent (num den : Nat) : Int :=
  let guess : Int := (Nat.log2 num : Int) - (Nat.log2 den : Int)
  if reaches num den guess then guess else guess - 1

/-- The mantissa and the exponent nearest to `num / den`; of two equally near, those with the even
mantissa. -/
def rounded (num den : Nat) : Nat × Int :=
  let exponent := max (binaryExponent num den - 52) minExponent
  let scaled := scale num den exponent
  let mantissa := roundDiv scaled.1 scaled.2
  if mantissa = Nat.pow 2 53 then (Nat.pow 2 52, exponent + 1) else (mantissa, exponent)

section Rounded

variable {num den : Nat} {low : Int}

theorem scale_den_pos (den_pos : 0 < den) (exponent : Int) : 0 < (scale num den exponent).2 := by
  unfold scale
  split
  · exact Nat.mul_pos den_pos (Nat.pow_pos (by decide))
  · exact den_pos

/-- What is left of a number at a greater exponent is smaller by a power of two. -/
theorem scale_mul (num den : Nat) (low : Int) (n : Nat) :
    (scale num den (low + n)).1 * ((scale num den low).2 * Nat.pow 2 n) =
      (scale num den low).1 * (scale num den (low + n)).2 := by
  simp only [scale, Nat.pow_eq]
  split
  · split
    · -- none is negative
      rename_i hlow
      have hsum : (low + n).toNat = low.toNat + n := by omega
      rw [hsum, Nat.pow_add]
      simp only [Nat.mul_assoc]
    · -- the exponent passes zero
      rename_i hhigh hlow
      have hsum : n = (-low).toNat + (low + n).toNat := by omega
      rw [show 2 ^ n = 2 ^ (-low).toNat * 2 ^ (low + n).toNat by rw [← Nat.pow_add, ← hsum]]
      simp only [Nat.mul_assoc, Nat.mul_left_comm, Nat.mul_comm]
  · have hsum : (-low).toNat = (-(low + n)).toNat + n := by omega
    rw [if_neg (by omega), hsum, Nat.pow_add]
    simp only [Nat.mul_assoc, Nat.mul_left_comm, Nat.mul_comm]

/-- A number that reaches a power of two is at least a greater multiple of a smaller one. -/
theorem le_scale_of_reaches (den_pos : 0 < den) (n : Nat) (h : reaches num den (low + n)) :
    Nat.pow 2 n * (scale num den low).2 ≤ (scale num den low).1 := by
  have hpos : 0 < (scale num den (low + n)).2 := scale_den_pos den_pos _
  have hreach : (scale num den (low + n)).2 ≤ (scale num den (low + n)).1 := by
    simpa [reaches] using h
  refine Nat.le_of_mul_le_mul_right ?_ hpos
  rw [← scale_mul, Nat.mul_comm (Nat.pow 2 n),
    Nat.mul_comm _ ((scale num den low).2 * Nat.pow 2 n)]
  exact Nat.mul_le_mul_left _ hreach

theorem reaches_of_reaches_add (den_pos : 0 < den) (n : Nat) (h : reaches num den (low + n)) :
    reaches num den low := by
  have hle : Nat.pow 2 n * (scale num den low).2 ≤ (scale num den low).1 :=
    le_scale_of_reaches den_pos n h
  have hpow : 1 ≤ Nat.pow 2 n := Nat.pow_pos (by decide)
  rw [reaches, decide_eq_true_eq]
  exact Nat.le_trans (Nat.le_mul_of_pos_left _ hpow) hle

/-- A number that does not reach a power of two is less than a greater multiple of a smaller one. -/
theorem scale_lt_of_not_reaches (den_pos : 0 < den) (n : Nat) (h : ¬reaches num den (low + n)) :
    (scale num den low).1 < Nat.pow 2 n * (scale num den low).2 := by
  have hbelow : (scale num den (low + n)).1 < (scale num den (low + n)).2 := by
    simpa [reaches] using h
  have hpos : 0 < (scale num den low).2 * Nat.pow 2 n :=
    Nat.mul_pos (scale_den_pos den_pos low) (Nat.pow_pos (by decide))
  refine Nat.lt_of_mul_lt_mul_right (a := (scale num den (low + n)).2) ?_
  rw [← scale_mul, Nat.mul_comm (Nat.pow 2 n),
    Nat.mul_comm _ ((scale num den low).2 * Nat.pow 2 n)]
  exact Nat.mul_lt_mul_of_pos_left hbelow hpos

/-- The lengths of two numbers tell their quotient up to a factor of two. -/
theorem reaches_log2 (num_pos : 0 < num) (den_pos : 0 < den) :
    reaches num den ((Nat.log2 num : Int) - Nat.log2 den - 1) ∧
      ¬reaches num den ((Nat.log2 num : Int) - Nat.log2 den + 1) := by
  have hnum : 2 ^ num.log2 ≤ num := Nat.log2_self_le (Nat.ne_of_gt num_pos)
  have hnum' : num < 2 ^ (num.log2 + 1) := Nat.lt_log2_self
  have hden : 2 ^ den.log2 ≤ den := Nat.log2_self_le (Nat.ne_of_gt den_pos)
  have hden' : den < 2 ^ (den.log2 + 1) := Nat.lt_log2_self
  generalize num.log2 = a at *
  generalize den.log2 = b at *
  simp only [reaches, scale, Nat.pow_eq, decide_eq_true_eq, Nat.not_le]
  constructor
  · split
    · have hsum : a = b + 1 + ((a : Int) - b - 1).toNat := by omega
      rw [hsum, Nat.pow_add] at hnum
      exact Nat.le_trans (Nat.mul_le_mul_right _ (Nat.le_of_lt hden')) hnum
    · have hsum : b + 1 = a + (-((a : Int) - b - 1)).toNat := by omega
      rw [hsum, Nat.pow_add] at hden'
      exact Nat.le_trans (Nat.le_of_lt hden') (Nat.mul_le_mul_right _ hnum)
  · split
    · have hsum : a + 1 = b + ((a : Int) - b + 1).toNat := by omega
      rw [hsum, Nat.pow_add] at hnum'
      exact Nat.lt_of_lt_of_le hnum' (Nat.mul_le_mul_right _ hden)
    · have hsum : b = a + 1 + (-((a : Int) - b + 1)).toNat := by omega
      rw [hsum, Nat.pow_add] at hden
      exact Nat.lt_of_lt_of_le
        (Nat.mul_lt_mul_of_pos_right hnum' (Nat.pow_pos (by decide))) hden

theorem reaches_binaryExponent (num_pos : 0 < num) (den_pos : 0 < den) :
    reaches num den (binaryExponent num den) ∧ ¬reaches num den (binaryExponent num den + 1) := by
  obtain ⟨hbelow, habove⟩ := reaches_log2 num_pos den_pos
  unfold binaryExponent
  dsimp only
  split
  · exact ⟨‹_›, habove⟩
  · rw [Int.sub_add_cancel]
    exact ⟨hbelow, ‹_›⟩

/-- A mantissa uses its leading bit unless the exponent is the least, and has no more bits but that
it may be rounded up to the next power of two. -/
theorem roundDiv_scale (num_pos : 0 < num) (den_pos : 0 < den) {exponent : Int}
    (h : exponent = max (binaryExponent num den - 52) minExponent) :
    roundDiv (scale num den exponent).1 (scale num den exponent).2 ≤ Nat.pow 2 53 ∧
      (Nat.pow 2 52 ≤ roundDiv (scale num den exponent).1 (scale num den exponent).2 ∨
        exponent = minExponent) := by
  obtain ⟨hreach, hnext⟩ := reaches_binaryExponent num_pos den_pos
  have hpos : 0 < (scale num den exponent).2 := scale_den_pos den_pos exponent
  constructor
  · refine roundDiv_le hpos (scale_lt_of_not_reaches den_pos 53 fun hfar => hnext ?_)
    obtain ⟨n, hn⟩ : ∃ n : Nat, exponent + (53 : Nat) = binaryExponent num den + 1 + n :=
      ⟨(exponent + 53 - (binaryExponent num den + 1)).toNat, by omega⟩
    exact reaches_of_reaches_add den_pos n (hn ▸ hfar)
  · by_cases hleast : exponent = minExponent
    · exact .inr hleast
    · refine .inl (le_roundDiv hpos (le_scale_of_reaches den_pos 52 ?_))
      rwa [show exponent + (52 : Nat) = binaryExponent num den by omega]

/-- What a positive number is rounded to is in range, or beyond all doubles. -/
theorem inRange_rounded (num_pos : 0 < num) (den_pos : 0 < den)
    (h : (rounded num den).2 ≤ maxExponent) : InRange (rounded num den).1 (rounded num den).2 := by
  obtain ⟨hupper, hlower⟩ := roundDiv_scale num_pos den_pos rfl
  have hleast : minExponent ≤ max (binaryExponent num den - 52) minExponent := Int.le_max_right ..
  unfold rounded at h ⊢
  dsimp only at h ⊢
  split
  · rename_i hcarry
    rw [if_pos hcarry] at h
    exact ⟨(by decide : Nat.pow 2 52 < Nat.pow 2 53), by omega, h, .inl (Nat.le_refl _)⟩
  · rename_i hcarry
    rw [if_neg hcarry] at h
    exact ⟨Nat.lt_of_le_of_ne hupper hcarry, hleast, h, hlower⟩

end Rounded

/-- The double nearest to `num / den`; of two equally near, the one with the even mantissa. -/
def ofRatio (negative : Bool) (num den : Nat) (den_pos : 0 < den) : Double :=
  if num_eq : num = 0 then zero negative
  else if beyond : maxExponent < (rounded num den).2 then .infinite negative
  else
    .finite negative (rounded num den).1 (rounded num den).2
      (inRange_rounded (Nat.pos_of_ne_zero num_eq) den_pos (Int.not_lt.mp beyond))

/-- The double nearest to `digits · 10 ^ exponent`. Beyond the range of doubles the power of ten
is not computed: the answer is infinite or zero whatever its digits are. -/
def ofDecimal (negative : Bool) (digits : Nat) (exponent : Int) : Double :=
  let size : Int := (Nat.toDigits 10 digits).length + exponent
  if digits = 0 ∨ size < -400 then zero negative
  else if 400 < size then .infinite negative
  else if 0 ≤ exponent then ofRatio negative (digits * Nat.pow 10 exponent.toNat) 1 Nat.one_pos
  else ofRatio negative digits (Nat.pow 10 (-exponent).toNat) (Nat.pow_pos (by decide))

/-- The double nearest to an integer. -/
def ofInt (n : Int) : Double := ofRatio (decide (n < 0)) n.natAbs 1 Nat.one_pos

/-- Whether the number is neither infinite nor undefined. -/
def isFinite : Double → Bool
  | .finite .. => true
  | _ => false

/-- Whether the number equals zero, of either sign. -/
def isZero : Double → Bool
  | .finite _ 0 _ _ => true
  | _ => false

/-- The integer that a number is, when it is one. -/
def toInt? : Double → Option Int
  | .finite negative m e _ =>
      let (num, den) := quotient m e
      if num % den = 0 then
        let magnitude : Int := (num / den : Nat)
        some (if negative then -magnitude else magnitude)
      else none
  | _ => none

/-- The number with the other sign. -/
def negate : Double → Double
  | .nan => .nan
  | .infinite negative => .infinite (!negative)
  | .finite negative m e inRange => .finite (!negative) m e inRange

/-- A sum, rounded once. Two opposite numbers add up to the zero without a sign. -/
def add : Double → Double → Double
  | .finite s m e _, .finite t n f _ =>
      let x := quotient m e
      let y := quotient n f
      let left : Int := if s then -(x.1 * y.2 : Nat) else (x.1 * y.2 : Nat)
      let right : Int := if t then -(y.1 * x.2 : Nat) else (y.1 * x.2 : Nat)
      let sum := left + right
      if sum = 0 then zero (s && t)
      else
        ofRatio (decide (sum < 0)) sum.natAbs (x.2 * y.2)
          (Nat.mul_pos (quotient_den_pos m e) (quotient_den_pos n f))
  | .infinite s, .infinite t => if s = t then .infinite s else .nan
  | .nan, _ => .nan
  | _, .nan => .nan
  | .infinite s, _ => .infinite s
  | _, .infinite t => .infinite t

/-- A product, rounded once. -/
def mul : Double → Double → Double
  | .finite s m e _, .finite t n f _ =>
      let x := quotient m e
      let y := quotient n f
      ofRatio (s != t) (x.1 * y.1) (x.2 * y.2)
        (Nat.mul_pos (quotient_den_pos m e) (quotient_den_pos n f))
  | .nan, _ => .nan
  | _, .nan => .nan
  | .infinite s, .infinite t => .infinite (s != t)
  | .infinite s, .finite t n _ _ => if n = 0 then .nan else .infinite (s != t)
  | .finite s m _ _, .infinite t => if m = 0 then .nan else .infinite (s != t)

end Double

end Stanza

