import Mathlib.Data.List.TakeWhile
import Mathlib.Data.Nat.Cast.Field
import Stanza.Proofs.Number.Interval
import Stanza.Proofs.Number.Written

/-!
Numbers read back.

`number?` reads a sign, digits, and perhaps a point and more digits, as a rational number. Integers
read back as themselves (`number?_integerText`), and doubles as the number `Double.written`, which
is the double itself if it is integral and otherwise its shortest decimal (`number?_numeral`). Since
a decimal rounds to one double only, doubles that are written alike are equal
(`Double.toRat_eq_of_written_eq`), and a double that is written as an integer is that integer
(`Double.toRat_eq_of_written_eq_intCast`).
-/

namespace Stanza

/-! ### Reading a numeral -/

/-- The number that digits with perhaps a point among them stand for. -/
def unsigned? (text : List Char) : Option ℚ :=
  let whole := text.takeWhile Char.isDigit
  match text.dropWhile Char.isDigit with
  | [] => if whole.isEmpty then none else some (Nat.ofDigitChars 10 whole 0)
  | '.' :: fraction =>
      if whole.isEmpty || fraction.isEmpty || !fraction.all Char.isDigit then none
      else some (Nat.ofDigitChars 10 (whole ++ fraction) 0 / 10 ^ fraction.length)
  | _ => none

/-- The number that a text stands for, if it is a numeral. -/
def number? : List Char → Option ℚ
  | '-' :: text => (unsigned? text).map Neg.neg
  | text => unsigned? text

theorem unsigned?_digits {digits : List Char} (hne : digits ≠ [])
    (hdigits : ∀ c ∈ digits, c.isDigit) :
    unsigned? digits = some (Nat.ofDigitChars 10 digits 0 : ℚ) := by
  have htake : digits.takeWhile Char.isDigit = digits := List.takeWhile_eq_self_iff.mpr hdigits
  have hdrop : digits.dropWhile Char.isDigit = [] := List.dropWhile_eq_nil_iff.mpr hdigits
  simp [unsigned?, htake, hdrop, hne]

theorem unsigned?_point {whole fraction : List Char} (hne : whole ≠ []) (hne' : fraction ≠ [])
    (hwhole : ∀ c ∈ whole, c.isDigit) (hfraction : ∀ c ∈ fraction, c.isDigit) :
    unsigned? (whole ++ '.' :: fraction) =
      some (Nat.ofDigitChars 10 (whole ++ fraction) 0 / 10 ^ fraction.length : ℚ) := by
  have htake : (whole ++ '.' :: fraction).takeWhile Char.isDigit = whole := by
    rw [List.takeWhile_append_of_pos hwhole]
    simp
  have hdrop : (whole ++ '.' :: fraction).dropWhile Char.isDigit = '.' :: fraction := by
    rw [List.dropWhile_append_of_pos hwhole]
    simp
  have hall : fraction.all Char.isDigit := List.all_eq_true.mpr hfraction
  simp [unsigned?, htake, hdrop, hne, hne', hall]

/-! ### Integers and decimals -/

/-- A sign in front of the digits is the sign of the number. -/
theorem number?_signText (negative : Bool) {text : List Char} {q : ℚ}
    (h : unsigned? text = some q) :
    number? (signText negative ++ text) = some (if negative then -q else q) := by
  cases negative with
  | true => simp [signText, number?, h]
  | false =>
    unfold number?
    split
    · rename_i rest hrest
      obtain rfl : text = '-' :: rest := by simpa [signText] using hrest
      simp [unsigned?] at h
    · simpa [signText] using h

theorem unsigned?_toDigits (n : Nat) : unsigned? (Nat.toDigits 10 n) = some (n : ℚ) := by
  rw [unsigned?_digits Nat.toDigits_ne_nil fun c => isDigit_of_mem_toDigits,
    Nat.ofDigitChars_ten_toDigits]

/-- The text of an integer reads back as the integer. -/
theorem number?_integerText (n : Int) : number? (integerText n) = some (n : ℚ) := by
  rw [integerText, number?_signText _ (unsigned?_toDigits _), Nat.cast_natAbs]
  by_cases hneg : n < 0
  · simp [hneg, abs_of_neg hneg]
  · simp [hneg, abs_of_nonneg (not_lt.mp hneg)]

/-- The digits of a number with a point among them. -/
theorem unsigned?_fraction {whole fraction : List Char} {digits : Nat} {e : Int} (hne : whole ≠ [])
    (hne' : fraction ≠ []) (hwhole : ∀ c ∈ whole, c.isDigit) (hfraction : ∀ c ∈ fraction, c.isDigit)
    (hvalue : Nat.ofDigitChars 10 (whole ++ fraction) 0 = digits)
    (hlength : (fraction.length : Int) = -e) :
    unsigned? (whole ++ '.' :: fraction) = some (Decimal.mk digits e).toRat := by
  rw [unsigned?_point hne hne' hwhole hfraction, hvalue, Decimal.toRat, ← neg_neg e, ← hlength,
    zpow_neg, zpow_natCast, div_eq_mul_inv]

/-- The digits of a decimal read back as the decimal. -/
theorem unsigned?_positional (x : Decimal) : unsigned? x.positional = some x.toRat := by
  obtain ⟨digits, e⟩ := x
  have hdigits : ∀ c ∈ Nat.toDigits 10 digits, c.isDigit := fun c => isDigit_of_mem_toDigits
  have hne : Nat.toDigits 10 digits ≠ [] := Nat.toDigits_ne_nil
  have hzeros : ∀ n, ∀ c ∈ List.replicate n '0', c.isDigit := by
    intro n c hc
    rw [List.eq_of_mem_replicate hc]
    decide
  unfold Decimal.positional
  simp only
  split
  · rename_i he
    obtain ⟨n, rfl⟩ := Int.eq_ofNat_of_zero_le he
    rw [unsigned?_digits (by simp [hne]) (List.forall_mem_append.mpr ⟨hdigits, hzeros _⟩),
      Nat.ofDigitChars_append, Nat.ofDigitChars_replicate_zero, Nat.ofDigitChars_ten_toDigits]
    simp [Decimal.toRat, mul_comm]
  · split
    · rename_i he hpoint
      have hshort :
          ((Nat.toDigits 10 digits).length + e).toNat < (Nat.toDigits 10 digits).length := by
        omega
      refine unsigned?_fraction ?_ ?_ (fun c hc => hdigits c (List.mem_of_mem_take hc))
        (fun c hc => hdigits c (List.mem_of_mem_drop hc)) ?_ ?_
      · exact fun hnil => by
          have := congrArg List.length hnil
          simp only [List.length_take, List.length_nil] at this
          omega
      · exact fun hnil => by
          have := congrArg List.length hnil
          simp only [List.length_drop, List.length_nil] at this
          omega
      · rw [List.take_append_drop, Nat.ofDigitChars_ten_toDigits]
      · rw [List.length_drop]
        omega
    · rename_i he hpoint
      refine unsigned?_fraction (by simp : ['0'] ≠ []) (by simp [hne]) (hzeros 1)
        (List.forall_mem_append.mpr ⟨hzeros _, hdigits⟩) ?_ ?_
      · rw [← List.append_assoc, Nat.ofDigitChars_append, List.singleton_append,
          ← List.replicate_succ, Nat.ofDigitChars_replicate_zero, Nat.mul_zero,
          Nat.ofDigitChars_ten_toDigits]
      · rw [List.length_append, List.length_replicate]
        omega

/-! ### Doubles -/

namespace Double

/-- The number that a finite double is. -/
def toRat : Double → ℚ
  | .finite negative m e _ => if negative then -(m * 2 ^ e) else m * 2 ^ e
  | _ => 0

/-- The number that is written for a finite double: the double itself if it is an integer, and its
shortest decimal otherwise. -/
def written : Double → ℚ
  | .finite negative m e inRange =>
      match toInt? (.finite negative m e inRange) with
      | some n => n
      | none => if negative then -(Decimal.shortest m e).toRat else (Decimal.shortest m e).toRat
  | _ => 0

theorem written_of_toInt? {x : Double} {n : Int} (h : x.toInt? = some n) : x.written = n := by
  cases x <;> simp_all [written, toInt?]

theorem written_of_toInt?_eq_none {negative : Bool} {m : Nat} {e : Int} {inRange : InRange m e}
    (h : toInt? (.finite negative m e inRange) = none) :
    written (.finite negative m e inRange) =
      if negative then -(Decimal.shortest m e).toRat else (Decimal.shortest m e).toRat := by
  simp [written, h]

/-- The numeral of a double reads back as the number that is written for it. -/
theorem number?_numeral {x : Double} {digits : List Char} (h : x.numeral? = some digits) :
    number? digits = some x.written := by
  unfold numeral? at h
  split at h
  · unfold written
    split at h
    · obtain rfl := Option.some.inj h
      simp [*, number?_integerText]
    · obtain rfl := Option.some.inj h
      rw [number?_signText _ (unsigned?_positional _)]
      simp [*]
  · simp at h

theorem exists_eq_finite {x : Double} (h : x.isFinite) :
    ∃ negative m e inRange, x = .finite negative m e inRange := by
  cases x with
  | finite negative m e inRange => exact ⟨negative, m, e, inRange, rfl⟩
  | nan => simp [isFinite] at h
  | infinite negative => simp [isFinite] at h

/-- A finite double has a numeral. -/
theorem exists_numeral {x : Double} (h : x.isFinite) : ∃ digits, x.numeral? = some digits := by
  unfold numeral?
  split
  · split
    · exact ⟨_, rfl⟩
    · exact ⟨_, rfl⟩
  · rename_i hnot
    obtain ⟨negative, m, e, inRange, rfl⟩ := exists_eq_finite h
    exact absurd rfl (hnot negative m e inRange)

/-- A double that is an integer is that integer. -/
theorem toRat_of_toInt? {x : Double} {n : Int} (h : x.toInt? = some n) : x.toRat = n := by
  unfold toInt? at h
  split at h
  · rename_i negative m e _
    simp only at h
    split at h
    · rename_i hmod
      have hden : ((quotient m e).2 : ℚ) ≠ 0 := by
        have := quotient_den_pos m e
        positivity
      have hvalue : (((quotient m e).1 / (quotient m e).2 : Nat) : ℚ) = m * 2 ^ e := by
        rw [Nat.cast_div (Nat.dvd_of_mod_eq_zero hmod) hden, quotient_num, mul_div_assoc,
          div_self hden, mul_one]
      generalize (quotient m e).1 / (quotient m e).2 = k at h hvalue
      obtain rfl := Option.some.inj h
      cases negative <;> simp [toRat, ← hvalue]
    · simp at h
  · simp at h

/-- What is written for a double that is no integer rounds to it, up to the sign. -/
theorem rounds_of_toInt?_eq_none {negative : Bool} {m : Nat} {e : Int} {inRange : InRange m e}
    (h : toInt? (.finite negative m e inRange) = none) :
    m ≠ 0 ∧ (quotient m e).1 % (quotient m e).2 ≠ 0 ∧ Rounds m e (Decimal.shortest m e).toRat := by
  have hmod : (quotient m e).1 % (quotient m e).2 ≠ 0 := by
    intro hmod
    simp [toInt?, hmod] at h
  have hm : m ≠ 0 := by
    rintro rfl
    exact hmod (by unfold quotient; split <;> simp)
  exact ⟨hm, hmod, Decimal.rounds_shortest hm e⟩

theorem isPlaced_of_inRange {m : Nat} {e : Int} (h : InRange m e) : IsPlaced m e :=
  ⟨h.1, h.2.1, h.2.2.2⟩

/-- A double that is written as an integer is that integer. -/
theorem toRat_eq_of_written_eq_intCast {x : Double} {n : Int} (hfinite : x.isFinite)
    (h : x.written = n) : x.toRat = n := by
  cases hint : x.toInt? with
  | some k => rw [toRat_of_toInt? hint, ← h, written_of_toInt? hint]
  | none =>
    obtain ⟨negative, m, e, _, rfl⟩ := exists_eq_finite hfinite
    obtain ⟨-, hmod, hrounds⟩ := rounds_of_toInt?_eq_none hint
    rw [written_of_toInt?_eq_none hint] at h
    obtain ⟨k, hk⟩ : ∃ k : Int, (Decimal.shortest m e).toRat = k := by
      cases negative with
      | false => exact ⟨n, by simpa using h⟩
      | true => exact ⟨-n, by simpa [neg_eq_iff_eq_neg] using h⟩
    rw [hk] at hrounds
    exact absurd hrounds.mod_eq_zero hmod

/-- Doubles that are written alike are equal. -/
theorem toRat_eq_of_written_eq {x y : Double} (hfinite : x.isFinite) (hfinite' : y.isFinite)
    (h : x.written = y.written) : x.toRat = y.toRat := by
  cases hint : x.toInt? with
  | some n =>
    have hn := written_of_toInt? hint
    rw [toRat_eq_of_written_eq_intCast hfinite hn,
      toRat_eq_of_written_eq_intCast hfinite' (h.symm.trans hn)]
  | none =>
    cases hint' : y.toInt? with
    | some n =>
      have hn := written_of_toInt? hint'
      rw [toRat_eq_of_written_eq_intCast hfinite' hn,
        toRat_eq_of_written_eq_intCast hfinite (h.trans hn)]
    | none =>
      obtain ⟨negative, m, e, hx, rfl⟩ := exists_eq_finite hfinite
      obtain ⟨negative', n, f, hy, rfl⟩ := exists_eq_finite hfinite'
      obtain ⟨hm, -, hrounds⟩ := rounds_of_toInt?_eq_none hint
      obtain ⟨hn, -, hrounds'⟩ := rounds_of_toInt?_eq_none hint'
      rw [written_of_toInt?_eq_none hint, written_of_toInt?_eq_none hint'] at h
      have hpos := hrounds.pos hm
      have hpos' := hrounds'.pos hn
      -- both decimals are positive, so the signs agree
      obtain ⟨rfl, hsame⟩ : negative = negative' ∧
          (Decimal.shortest m e).toRat = (Decimal.shortest n f).toRat := by
        cases negative <;> cases negative' <;> simp at h ⊢ <;> linarith
      rw [hsame] at hrounds
      have hvalue := hrounds.unique (isPlaced_of_inRange hx) (isPlaced_of_inRange hy) hrounds'
      simp [toRat, hvalue]

end Double

end Stanza
