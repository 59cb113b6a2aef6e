import Mathlib.Algebra.Order.Field.Power
import Mathlib.Algebra.Order.Field.Rat
import Mathlib.Tactic.FieldSimp
import Mathlib.Tactic.Linarith
import Mathlib.Tactic.NormNum
import Mathlib.Tactic.Positivity
import Mathlib.Tactic.Ring
import Stanza.Number.Decimal

/-!
Which numbers round to a double.

`Rounds m e q` says that a number is at most half a step away from the double of mantissa `m` and
exponent `e`, and less than that when the mantissa is odd. The shortest decimal of a double rounds
to it (`rounds_shortest`), no number rounds to two different doubles (`Rounds.unique`), and an
integer rounds to a double only if the double is that integer (`Rounds.mod_eq_zero`).
-/

namespace Stanza

/-! ### Quotients as rational numbers -/

namespace Double

theorem quotient_num (k : Nat) (e : Int) :
    ((quotient k e).1 : ℚ) = k * 2 ^ e * (quotient k e).2 := by
  unfold quotient
  split
  · rename_i he
    obtain ⟨n, rfl⟩ := Int.eq_ofNat_of_zero_le he
    simp
  · rename_i he
    obtain ⟨n, rfl⟩ : ∃ n : Nat, e = -(n : Int) := ⟨e.natAbs, by omega⟩
    simp

/-- The denominator depends on the exponent only. -/
theorem quotient_den (k n : Nat) (e : Int) : (quotient k e).2 = (quotient n e).2 := by
  unfold quotient
  split <;> rfl

end Double

namespace Decimal

/-- The number that a decimal is. -/
def toRat (x : Decimal) : ℚ := x.digits * 10 ^ x.exponent

theorem den_pos (x : Decimal) : 0 < x.quotient.2 := by
  unfold quotient
  split
  · exact Nat.one_pos
  · exact Nat.pow_pos (by decide)

theorem quotient_num (x : Decimal) : (x.quotient.1 : ℚ) = x.toRat * x.quotient.2 := by
  obtain ⟨digits, e⟩ := x
  unfold quotient toRat
  split
  · rename_i he
    obtain ⟨n, rfl⟩ := Int.eq_ofNat_of_zero_le he
    simp
  · rename_i he
    obtain ⟨n, rfl⟩ : ∃ n : Nat, e = -(n : Int) := ⟨e.natAbs, by simp at he; omega⟩
    simp

/-- Leaving out zeros at the end of the digits does not change a number. -/
theorem toRat_trim (fuel : Nat) (x : Decimal) : (trim fuel x).toRat = x.toRat := by
  induction fuel generalizing x with
  | zero => rfl
  | succ fuel ih =>
    rw [trim]
    split
    · rename_i hzero
      rw [ih]
      obtain ⟨n, hn⟩ : ∃ n, x.digits = n * 10 := ⟨x.digits / 10, by omega⟩
      simp only [toRat, hn, Nat.mul_div_cancel _ (by decide : 0 < 10), Nat.cast_mul]
      rw [zpow_add_one₀ (by norm_num)]
      push_cast
      ring
    · rfl

theorem toRat_exact (m : Nat) (e : Int) : (exact m e).toRat = m * 2 ^ e := by
  unfold exact
  split
  · rename_i he
    obtain ⟨n, rfl⟩ := Int.eq_ofNat_of_zero_le he
    simp [toRat]
  · rename_i he
    obtain ⟨n, rfl⟩ : ∃ n : Nat, e = -(n : Int) := ⟨e.natAbs, by omega⟩
    have hten : (10 : ℚ) ^ n = 2 ^ n * 5 ^ n := by rw [← mul_pow]; norm_num
    simp only [toRat, neg_neg, Int.toNat_natCast, zpow_neg, zpow_natCast, hten, Nat.pow_eq]
    push_cast
    field_simp

end Decimal

/-! ### Numbers that round to a double -/

/-- How far below a double the numbers begin that round to it, in steps of its exponent. Below a
power of two the steps are half as wide. -/
def lowerGap (m : Nat) (e : Int) : ℚ :=
  if m = Nat.pow 2 52 ∧ Double.minExponent < e then 1 / 4 else 1 / 2

/-- A number rounds to `m · 2 ^ e`: it is close enough, and no tie that goes to a neighbour. -/
structure Rounds (m : Nat) (e : Int) (q : ℚ) : Prop where
  low : (m - lowerGap m e) * 2 ^ e ≤ q
  high : q ≤ (m + 1 / 2) * 2 ^ e
  odd : m % 2 = 1 → (m - lowerGap m e) * 2 ^ e < q ∧ q < (m + 1 / 2) * 2 ^ e

variable {m n : Nat} {e f : Int} {q : ℚ}

theorem lowerGap_pos (m : Nat) (e : Int) : 0 < lowerGap m e := by
  unfold lowerGap
  split <;> norm_num

theorem lowerGap_le (m : Nat) (e : Int) : lowerGap m e ≤ 1 / 2 := by
  unfold lowerGap
  split <;> norm_num

/-- A double rounds to itself. -/
theorem rounds_self (m : Nat) (e : Int) : Rounds m e (m * 2 ^ e) := by
  have hstep : (0 : ℚ) < 2 ^ e := by positivity
  have hlow : (m - lowerGap m e) * 2 ^ e < m * 2 ^ e := by nlinarith [lowerGap_pos m e]
  have hhigh : m * 2 ^ e < (m + 1 / 2 : ℚ) * 2 ^ e := by nlinarith
  exact ⟨hlow.le, hhigh.le, fun _ => ⟨hlow, hhigh⟩⟩

namespace Decimal

/-- Naturals that are multiples of one positive number compare as their factors do. -/
theorem le_iff_of_scaled {a b : Nat} {p q c : ℚ} (hc : 0 < c) (ha : (a : ℚ) = p * c)
    (hb : (b : ℚ) = q * c) : a ≤ b ↔ p ≤ q := by
  rw [← Nat.cast_le (α := ℚ), ha, hb]
  exact mul_le_mul_iff_of_pos_right hc

/-- The interval of a double holds decimals that round to it. -/
theorem rounds_of_contains {x : Decimal} (hm : m ≠ 0)
    (h : (Interval.ofDouble m e).contains x = true) : Rounds m e x.toRat := by
  have hscale : (0 : ℚ) < x.quotient.2 * (Double.quotient 1 (e - 2)).2 := by
    have hx := x.den_pos
    have hd := Double.quotient_den_pos 1 (e - 2)
    positivity
  have hvalue : ((x.quotient.1 * (Double.quotient 1 (e - 2)).2 : Nat) : ℚ) =
      x.toRat * (x.quotient.2 * (Double.quotient 1 (e - 2)).2) := by
    push_cast
    rw [quotient_num]
    ring
  have hbound : ∀ k : Nat, (((Double.quotient k (e - 2)).1 * x.quotient.2 : Nat) : ℚ) =
      k * 2 ^ (e - 2) * (x.quotient.2 * (Double.quotient 1 (e - 2)).2) := by
    intro k
    push_cast
    rw [Double.quotient_num, Double.quotient_den k 1]
    ring
  have habove : ∀ k : Nat, (Double.quotient k (e - 2)).1 * x.quotient.2 ≤
      x.quotient.1 * (Double.quotient 1 (e - 2)).2 ↔ (k * 2 ^ (e - 2) : ℚ) ≤ x.toRat :=
    fun k => le_iff_of_scaled hscale (hbound k) hvalue
  have hbelow : ∀ k : Nat, x.quotient.1 * (Double.quotient 1 (e - 2)).2 ≤
      (Double.quotient k (e - 2)).1 * x.quotient.2 ↔ x.toRat ≤ (k * 2 ^ (e - 2) : ℚ) :=
    fun k => le_iff_of_scaled hscale hvalue (hbound k)
  have hfour : (2 : ℚ) ^ e = 4 * 2 ^ (e - 2) := by
    rw [zpow_sub₀ (by norm_num)]
    norm_num
    ring
  have hlow : ((4 * m - (if m = Nat.pow 2 52 ∧ Double.minExponent < e then 1 else 2) : Nat) : ℚ) *
      2 ^ (e - 2) = (m - lowerGap m e) * 2 ^ e := by
    unfold lowerGap
    split
    · rw [Nat.cast_sub (by omega), hfour]
      push_cast
      ring
    · rw [Nat.cast_sub (by omega), hfour]
      push_cast
      ring
  have hhigh : ((4 * m + 2 : Nat) : ℚ) * 2 ^ (e - 2) = (m + 1 / 2) * 2 ^ e := by
    rw [hfour]
    push_cast
    ring
  unfold Interval.contains at h
  by_cases heven : m % 2 = 0
  · simp only [Interval.ofDouble, heven, decide_true, if_true, Bool.and_eq_true,
      decide_eq_true_eq] at h
    rw [habove, hbelow, hlow, hhigh] at h
    exact ⟨h.1, h.2, fun hodd => by omega⟩
  · simp only [Interval.ofDouble, heven, decide_false, Bool.false_eq_true, if_false,
      Bool.and_eq_true, decide_eq_true_eq, ← Nat.not_le] at h
    rw [habove, hbelow, hlow, hhigh, not_le, not_le] at h
    exact ⟨h.1.le, h.2.le, fun _ => h⟩

theorem contains_of_ofCount? {i : Interval} {count : Nat} {x : Decimal}
    (h : ofCount? i count = some x) : i.contains x = true := by
  unfold ofCount? at h
  simp only at h
  generalize (if 0 ≤ decimalExponent i.value i.den - (count : Int) + 1 then _ else _ : Nat × Nat) =
    ratio at h
  split at h
  · rename_i hbelow habove
    split at h
    · exact Option.some.inj h ▸ hbelow
    · exact Option.some.inj h ▸ habove
  · rename_i hbelow _
    exact Option.some.inj h ▸ hbelow
  · rename_i _ habove
    exact Option.some.inj h ▸ habove
  · simp at h

/-- The shortest decimal of a double rounds to it. -/
theorem rounds_shortest (hm : m ≠ 0) (e : Int) : Rounds m e (shortest m e).toRat := by
  unfold shortest
  rw [toRat_trim]
  cases hfound : (List.range' 1 17).findSome? (ofCount? (Interval.ofDouble m e)) with
  | none =>
    rw [Option.getD_none, toRat_exact]
    exact rounds_self m e
  | some x =>
    obtain ⟨count, -, hx⟩ := List.exists_of_findSome?_eq_some hfound
    exact rounds_of_contains hm (contains_of_ofCount? hx)

end Decimal

/-! ### Uniqueness -/

/-- A finite double in range, by its mantissa and exponent. -/
structure IsPlaced (m : Nat) (e : Int) : Prop where
  mantissa_lt : m < 2 ^ 53
  exponent_ge : Double.minExponent ≤ e
  leading : 2 ^ 52 ≤ m ∨ e = Double.minExponent

theorem two_zpow_le (h : e < f) : (2 : ℚ) * 2 ^ e ≤ 2 ^ f := by
  calc (2 : ℚ) * 2 ^ e = 2 ^ (e + 1) := by rw [zpow_add_one₀ (by norm_num), mul_comm]
    _ ≤ 2 ^ f := zpow_le_zpow_right₀ (by norm_num) (by omega)

/-- The mantissa of a double that is not of the least exponent has its leading bit. -/
theorem IsPlaced.leading_of_lt (hm : IsPlaced m e) (hn : IsPlaced n f) (hef : e < f) :
    2 ^ 52 ≤ n := by
  rcases hn.leading with h | h
  · exact h
  · have := hm.exponent_ge
    omega

/-- A double of a smaller exponent is smaller. -/
theorem lt_of_exponent_lt (hm : IsPlaced m e) (hn : IsPlaced n f) (hef : e < f) :
    (m * 2 ^ e : ℚ) < n * 2 ^ f := by
  have hmax : (m : ℚ) < 2 ^ 53 := by exact_mod_cast hm.mantissa_lt
  have hleading : (2 ^ 52 : ℚ) ≤ n := by exact_mod_cast hm.leading_of_lt hn hef
  calc (m * 2 ^ e : ℚ) < 2 ^ 53 * 2 ^ e := mul_lt_mul_of_pos_right hmax (by positivity)
    _ = 2 ^ 52 * (2 * 2 ^ e) := by ring
    _ ≤ n * 2 ^ f := mul_le_mul hleading (two_zpow_le hef) (by positivity) (by positivity)

/-- What rounds to a double of a greater exponent is half a step or more above every double of a
smaller one. -/
theorem low_of_exponent_lt (hm : IsPlaced m e) (hn : IsPlaced n f) (hef : e < f) :
    (2 ^ 53 - 1 / 2 : ℚ) * 2 ^ e ≤ (n - lowerGap n f) * 2 ^ f := by
  have hleading := hm.leading_of_lt hn hef
  have hlow : (2 ^ 52 - 1 / 4 : ℚ) ≤ n - lowerGap n f := by
    rcases hleading.eq_or_lt with rfl | hlt
    · have hf : Double.minExponent < f := hm.exponent_ge.trans_lt hef
      norm_num [lowerGap, hf]
    · have hnext : (2 ^ 52 + 1 : ℚ) ≤ n := by exact_mod_cast hlt
      have hgap := lowerGap_le n f
      linarith
  calc (2 ^ 53 - 1 / 2 : ℚ) * 2 ^ e = (2 ^ 52 - 1 / 4) * (2 * 2 ^ e) := by ring
    _ ≤ (n - lowerGap n f) * 2 ^ f :=
      mul_le_mul hlow (two_zpow_le hef) (by positivity) (by linarith)

/-- No number rounds to two doubles of which one is less than the other. -/
theorem not_rounds_of_lt (hm : IsPlaced m e) (hn : IsPlaced n f)
    (hlt : (m * 2 ^ e : ℚ) < n * 2 ^ f) (hq : Rounds m e q) : ¬ Rounds n f q := by
  intro hq'
  have hstep : (0 : ℚ) < 2 ^ e := by positivity
  rcases lt_trichotomy e f with hef | rfl | hfe
  · have hlow := (low_of_exponent_lt hm hn hef).trans hq'.low
    have hmax := hm.mantissa_lt
    rcases Nat.mod_two_eq_zero_or_one m with heven | hodd
    · -- the greatest mantissa is odd, so this one leaves a whole step
      have hnext : (m + 1 / 2 : ℚ) < 2 ^ 53 - 1 / 2 := by
        have : (m + 2 : ℚ) ≤ 2 ^ 53 := by exact_mod_cast (by omega : m + 2 ≤ 2 ^ 53)
        linarith
      have hhigh := hq.high.trans_lt (mul_lt_mul_of_pos_right hnext hstep)
      exact absurd hlow (not_le.mpr hhigh)
    · have hnext : (m + 1 / 2 : ℚ) ≤ 2 ^ 53 - 1 / 2 := by
        have : (m + 1 : ℚ) ≤ 2 ^ 53 := by exact_mod_cast hmax
        linarith
      have hhigh := (hq.odd hodd).2.trans_le (mul_le_mul_of_nonneg_right hnext hstep.le)
      exact absurd hlow (not_le.mpr hhigh)
  · have hnext : (m : ℚ) + 1 ≤ n := by
      have hmn : (m : ℚ) < n := lt_of_mul_lt_mul_right hlt hstep.le
      exact_mod_cast hmn
    have hgap := lowerGap_le n e
    -- both bounds meet half a step between the two
    have hhigh := hq.high
    have hlow := hq'.low
    have hmeet : (m + 1 / 2 : ℚ) * 2 ^ e ≤ (n - lowerGap n e) * 2 ^ e :=
      mul_le_mul_of_nonneg_right (by linarith) hstep.le
    have hlow : (n - lowerGap n e) * 2 ^ e ≤ (m + 1 / 2 : ℚ) * 2 ^ e := hq'.low.trans hq.high
    have heq : (n : ℚ) - lowerGap n e = m + 1 / 2 :=
      mul_right_cancel₀ hstep.ne' (le_antisymm hlow hmeet)
    have hsucc : n = m + 1 := by
      have : (n : ℚ) = m + 1 := by linarith
      exact_mod_cast this
    rcases Nat.mod_two_eq_zero_or_one m with heven | hodd
    · have hodd : n % 2 = 1 := by omega
      exact absurd hq.high (not_le.mpr (by rw [← heq]; exact (hq'.odd hodd).1))
    · exact absurd hq'.low (not_le.mpr (by rw [heq]; exact (hq.odd hodd).2))
  · exact absurd hlt (not_lt.mpr (lt_of_exponent_lt hn hm hfe).le)

/-- A number rounds to one double at most. -/
theorem Rounds.unique (hm : IsPlaced m e) (hn : IsPlaced n f) (hq : Rounds m e q)
    (hq' : Rounds n f q) : (m * 2 ^ e : ℚ) = n * 2 ^ f := by
  rcases lt_trichotomy (m * 2 ^ e : ℚ) (n * 2 ^ f) with hlt | heq | hlt
  · exact absurd hq' (not_rounds_of_lt hm hn hlt hq)
  · exact heq
  · exact absurd hq (not_rounds_of_lt hn hm hlt hq')

/-- What rounds to a double that is not zero is positive. -/
theorem Rounds.pos (hm : m ≠ 0) (hq : Rounds m e q) : 0 < q := by
  have hone : (1 : ℚ) ≤ m := by exact_mod_cast Nat.one_le_iff_ne_zero.mpr hm
  have hgap := lowerGap_le m e
  have hlow : (0 : ℚ) < (m - lowerGap m e) * 2 ^ e := mul_pos (by linarith) (by positivity)
  exact hlow.trans_le hq.low

/-- An integer rounds to a double only if the double is an integer. -/
theorem Rounds.mod_eq_zero {k : Int} (hq : Rounds m e k) :
    (Double.quotient m e).1 % (Double.quotient m e).2 = 0 := by
  unfold Double.quotient
  split
  · exact Nat.mod_one _
  · rename_i he
    obtain ⟨d, rfl⟩ : ∃ d : Nat, e = -(d : Int) := ⟨e.natAbs, by omega⟩
    have hden : (0 : ℚ) < 2 ^ d := by positivity
    have hcancel : ∀ p : ℚ, p * 2 ^ (-(d : Int)) * 2 ^ d = p := by
      intro p
      rw [zpow_neg, zpow_natCast, mul_assoc, inv_mul_cancel₀ hden.ne', mul_one]
    have hgap := lowerGap_le m (-(d : Int))
    have hlow := mul_le_mul_of_nonneg_right hq.low hden.le
    have hhigh := mul_le_mul_of_nonneg_right hq.high hden.le
    rw [hcancel] at hlow hhigh
    -- the integer `k * 2 ^ d` is half a unit away from the mantissa at most
    have hbelow : (m : ℚ) < k * 2 ^ d + 1 := by linarith
    have habove : (k * 2 ^ d : ℚ) < m + 1 := by linarith
    have hbelow : (m : Int) < k * 2 ^ d + 1 := by exact_mod_cast hbelow
    have habove : k * 2 ^ d < (m : Int) + 1 := by exact_mod_cast habove
    have heq : (m : Int) = k * 2 ^ d := by omega
    have hdvd : (2 ^ d : Nat) ∣ m := by
      rw [← Int.natCast_dvd_natCast]
      exact ⟨k, by rw [heq]; push_cast; ring⟩
    simpa using Nat.mod_eq_zero_of_dvd hdvd

end Stanza
