import Stanza.Proofs.Number.Reading
import Stanza.Value.Render

/-!
Numbers are written exactly.

Integers of not too many digits and finite doubles have numerals, all of one form (`IsNumeral`): an
optional sign, digits without a needless zero in front, and perhaps a point with digits behind it.
`Value.numeral_exact` says what a numeral denotes. For an integer, and for a double that is one, it
is that very number, however large. For any other double it is the decimal of its literal, which
`literalNumber?` reads: there the numeral only does without the power of ten. So numbers are written
alike exactly when they are equal (`Value.numeral_eq_iff`), whether they are integers or doubles.

* `Double.toInt?_eq_some_iff`: a double is found to be an integer when it is one.
* `Double.eq_of_toRat_eq`: but for zero, a number is a double in one way only.
* `Double.literalNumber?_literal`: the literal of a double denotes its shortest decimal.
-/

namespace Stanza

/-! ### The form of a numeral -/

/-- Digits without a needless zero in front. -/
structure IsWhole (digits : List Char) : Prop where
  isDigit : ∀ c ∈ digits, c.isDigit
  ne_nil : digits ≠ []
  lead : digits.head? = some '0' → digits = ['0']

/-- A point with digits behind it. -/
def IsFraction (text : List Char) : Prop :=
  ∃ digits, text = '.' :: digits ∧ digits ≠ [] ∧ ∀ c ∈ digits, c.isDigit

/-- The form of a numeral: a sign or none, digits, and a point with more digits or nothing. -/
def IsNumeral (text : List Char) : Prop :=
  ∃ negative whole fraction, text = signText negative ++ whole ++ fraction ∧ IsWhole whole ∧
    (fraction = [] ∨ IsFraction fraction)

/-- The digits of a number that is not zero do not begin with a zero. -/
theorem head?_toDigits_ne {n : Nat} (h : n ≠ 0) : (Nat.toDigits 10 n).head? ≠ some '0' := by
  induction n using Nat.strong_induction_on with
  | _ n ih =>
    by_cases hsmall : n < 10
    · rw [Nat.toDigits_of_lt_base hsmall]
      simpa using h
    · have hfront := ih (n / 10) (by omega) (by omega)
      rw [Nat.toDigits_of_base_le (by decide) (by omega),
        List.head?_append_of_ne_nil _ Nat.toDigits_ne_nil]
      exact hfront

theorem isWhole_toDigits (n : Nat) : IsWhole (Nat.toDigits 10 n) := by
  refine ⟨fun c => isDigit_of_mem_toDigits, Nat.toDigits_ne_nil, fun hzero => ?_⟩
  by_cases hn : n = 0
  · rw [hn]
    rfl
  · exact absurd hzero (head?_toDigits_ne hn)

/-- A sign and digits are a numeral, and have no point. -/
theorem isNumeral_integerText (n : Int) : IsNumeral (integerText n) ∧ '.' ∉ integerText n := by
  constructor
  · exact ⟨decide (n < 0), Nat.toDigits 10 n.natAbs, [], by simp [integerText],
      isWhole_toDigits _, .inl rfl⟩
  · intro hpoint
    rcases List.mem_append.mp hpoint with hsign | hdigits
    · unfold signText at hsign
      split at hsign <;> simp at hsign
    · exact absurd (isDigit_of_mem_toDigits hdigits) (by decide)

/-- The digits of a decimal with a negative exponent have a point among them. -/
theorem Decimal.exists_positional {x : Decimal} (hdigits : x.digits ≠ 0) (he : x.exponent < 0) :
    ∃ whole fraction, x.positional = whole ++ fraction ∧ IsWhole whole ∧ IsFraction fraction := by
  have hall : ∀ c ∈ Nat.toDigits 10 x.digits, c.isDigit := fun c => isDigit_of_mem_toDigits
  unfold positional
  simp only [if_neg (not_le.mpr he)]
  split
  · rename_i hpoint
    -- the point is inside the digits, so there are some on both sides of it
    generalize hn : ((Nat.toDigits 10 x.digits).length + x.exponent).toNat = n
    have hn : 0 < n ∧ n < (Nat.toDigits 10 x.digits).length := by omega
    refine ⟨_, _, rfl, ⟨fun c hc => hall c (List.mem_of_mem_take hc), ?_, fun hzero => ?_⟩, _, rfl,
      ?_, fun c hc => hall c (List.mem_of_mem_drop hc)⟩
    · simp only [ne_eq, List.take_eq_nil_iff, Nat.toDigits_ne_nil, or_false]
      omega
    · rw [List.head?_take, if_neg (by omega)] at hzero
      exact absurd hzero (head?_toDigits_ne hdigits)
    · simp only [ne_eq, List.drop_eq_nil_iff]
      omega
  · refine ⟨['0'], _, rfl, ⟨by simp [Char.isDigit], by simp, by simp⟩, _, rfl, by simp,
      fun c hc => ?_⟩
    rcases List.mem_append.mp hc with hzero | hdigit
    · rw [List.eq_of_mem_replicate hzero]
      decide
    · exact hall c hdigit

/-- What a numeral is made of. -/
theorem IsNumeral.mem {text : List Char} (h : IsNumeral text) {c : Char} (hc : c ∈ text) :
    c = '-' ∨ c = '.' ∨ c.isDigit := by
  obtain ⟨negative, whole, fraction, rfl, hwhole, hfraction⟩ := h
  rcases List.mem_append.mp hc with hc | hc
  · rcases List.mem_append.mp hc with hsign | hdigit
    · unfold signText at hsign
      split at hsign <;> simp at hsign
      exact .inl hsign
    · exact .inr (.inr (hwhole.isDigit c hdigit))
  · rcases hfraction with rfl | ⟨digits, rfl, -, hdigits⟩
    · simp at hc
    · rcases List.mem_cons.mp hc with rfl | hdigit
      · exact .inr (.inl rfl)
      · exact .inr (.inr (hdigits c hdigit))

/-! ### Literals read -/

/-- The exponent that a sign with digits behind it stands for. -/
def exponent? : List Char → Option Int
  | '-' :: digits =>
      if digits.isEmpty || !digits.all Char.isDigit then none
      else some (-(Nat.ofDigitChars 10 digits 0 : Int))
  | '+' :: digits =>
      if digits.isEmpty || !digits.all Char.isDigit then none
      else some (Nat.ofDigitChars 10 digits 0)
  | _ => none

/-- The number that a literal stands for: that of a numeral, times a power of ten if there is an
exponent behind it. -/
def literalNumber? (text : List Char) : Option ℚ :=
  match text.dropWhile (· ≠ 'e') with
  | [] => number? text
  | _ :: mark => do
      let q ← number? (text.takeWhile (· ≠ 'e'))
      return q * 10 ^ (← exponent? mark)

theorem literalNumber?_of_not_mem {text : List Char} (h : 'e' ∉ text) :
    literalNumber? text = number? text := by
  have hdrop : text.dropWhile (· ≠ 'e') = [] := by
    refine List.dropWhile_eq_nil_iff.mpr fun c hc => ?_
    rw [decide_eq_true_eq]
    rintro rfl
    exact h hc
  simp only [literalNumber?, hdrop]

theorem literalNumber?_of_mark {front mark : List Char} {q : ℚ} {e : Int} (h : 'e' ∉ front)
    (hfront : number? front = some q) (hmark : exponent? mark = some e) :
    literalNumber? (front ++ 'e' :: mark) = some (q * 10 ^ e) := by
  have hall : ∀ c ∈ front, decide (c ≠ 'e') = true := by
    intro c hc
    rw [decide_eq_true_eq]
    rintro rfl
    exact h hc
  have hdrop : (front ++ 'e' :: mark).dropWhile (· ≠ 'e') = 'e' :: mark := by
    rw [List.dropWhile_append_of_pos hall]
    simp
  have htake : (front ++ 'e' :: mark).takeWhile (· ≠ 'e') = front := by
    rw [List.takeWhile_append_of_pos hall]
    simp
  simp only [literalNumber?, hdrop, htake, hfront, hmark]
  rfl

/-- The digits of an exponent, of which there are two at least, read back. -/
theorem exponent?_mark (e : Int) :
    exponent? ((if e < 0 then '-' else '+') ::
      (if (Nat.toDigits 10 e.natAbs).length < 2 then '0' :: Nat.toDigits 10 e.natAbs
        else Nat.toDigits 10 e.natAbs)) = some e := by
  generalize hmark : (if (Nat.toDigits 10 e.natAbs).length < 2 then '0' :: Nat.toDigits 10 e.natAbs
    else Nat.toDigits 10 e.natAbs) = mark
  have hall : mark.isEmpty = false ∧ mark.all Char.isDigit = true ∧
      Nat.ofDigitChars 10 mark 0 = e.natAbs := by
    have hdigits : (Nat.toDigits 10 e.natAbs).all Char.isDigit :=
      List.all_eq_true.mpr fun c => isDigit_of_mem_toDigits
    rw [← hmark]
    split
    · simp [hdigits, Nat.ofDigitChars_cons]
    · simp [hdigits]
  obtain ⟨hne, hdigits, hvalue⟩ := hall
  split
  · simp only [exponent?, hne, hdigits, hvalue, Bool.not_true, Bool.or_self, Bool.false_eq_true,
      if_false, Option.some.injEq]
    omega
  · simp only [exponent?, hne, hdigits, hvalue, Bool.not_true, Bool.or_self, Bool.false_eq_true,
      if_false, Option.some.injEq]
    omega

namespace Decimal

/-- In front of the exponent stand the digits with a point behind the first of them, if there are
others. -/
theorem exists_scientific (x : Decimal) : ∃ front mark, x.scientific = front ++ 'e' :: mark ∧
    'e' ∉ front ∧
    unsigned? front = some (x.digits / 10 ^ ((Nat.toDigits 10 x.digits).length - 1) : ℚ) ∧
    exponent? mark = some ((Nat.toDigits 10 x.digits).length + x.exponent - 1) := by
  have hall : ∀ c ∈ Nat.toDigits 10 x.digits, c.isDigit := fun c => isDigit_of_mem_toDigits
  have hvalue : Nat.ofDigitChars 10 (Nat.toDigits 10 x.digits) 0 = x.digits :=
    Nat.ofDigitChars_ten_toDigits
  have hmark := exponent?_mark ((Nat.toDigits 10 x.digits).length + x.exponent - 1)
  obtain ⟨c, rest, hdigits⟩ :=
    List.exists_cons_of_ne_nil (Nat.toDigits_ne_nil (b := 10) (n := x.digits))
  unfold scientific
  simp only [hdigits] at hall hvalue hmark ⊢
  have hletter : 'e' ∉ c :: rest := fun hmem => absurd (hall 'e' hmem) (by decide)
  cases rest with
  | nil =>
    refine ⟨[c], _, rfl, by simpa using hletter, ?_, hmark⟩
    simpa [hvalue] using unsigned?_digits (by simp) hall
  | cons d rest =>
    obtain ⟨hc, hrest⟩ := List.forall_mem_cons.mp hall
    refine ⟨c :: '.' :: d :: rest, _, rfl, by simpa using hletter, ?_, hmark⟩
    have hlead : ∀ digit ∈ [c], digit.isDigit := by simpa using hc
    rw [← hvalue]
    exact unsigned?_point (List.cons_ne_nil c []) (List.cons_ne_nil d rest) hlead hrest

/-- The digits of a decimal with an exponent behind them denote the decimal. -/
theorem literalNumber?_scientific (negative : Bool) (x : Decimal) :
    literalNumber? (signText negative ++ x.scientific) =
      some (if negative then -x.toRat else x.toRat) := by
  obtain ⟨front, mark, htext, hfront, hnumber, hmark⟩ := exists_scientific x
  have hsign : 'e' ∉ signText negative ++ front := by
    intro hmem
    rcases List.mem_append.mp hmem with hmem | hmem
    · unfold signText at hmem
      split at hmem <;> simp at hmem
    · exact hfront hmem
  rw [htext, ← List.append_assoc,
    literalNumber?_of_mark hsign (number?_signText negative hnumber) hmark]
  have hscale : (x.digits / 10 ^ ((Nat.toDigits 10 x.digits).length - 1) : ℚ) *
      10 ^ ((Nat.toDigits 10 x.digits).length + x.exponent - 1) = x.toRat := by
    obtain ⟨n, hn⟩ : ∃ n, (Nat.toDigits 10 x.digits).length = n + 1 :=
      ⟨_, (Nat.succ_pred_eq_of_pos Nat.length_toDigits_pos).symm⟩
    have hexponent : ((n + 1 : Nat) : Int) + x.exponent - 1 = n + x.exponent := by omega
    rw [hn, hexponent, Nat.add_sub_cancel, zpow_add₀ (by norm_num), zpow_natCast, toRat]
    field_simp
  cases negative with
  | false => simpa using hscale
  | true => simpa [neg_mul] using hscale

end Decimal

/-! ### Doubles -/

namespace Double

variable {x y : Double} {n : Int}

/-- A double is found to be an integer when it is one. -/
theorem toInt?_eq_some_iff (hfinite : x.isFinite) : x.toInt? = some n ↔ x.toRat = n := by
  constructor
  · exact toRat_of_toInt?
  intro hn
  cases hint : x.toInt? with
  | some k =>
    have hk := toRat_of_toInt? hint
    rw [hn] at hk
    rw [show n = k by exact_mod_cast hk]
  | none =>
    obtain ⟨negative, m, e, _, rfl⟩ := exists_eq_finite hfinite
    -- the numerator is a multiple of the denominator after all
    have hsize : (m * 2 ^ e : ℚ) = n.natAbs := by
      have hpos : (0 : ℚ) ≤ m * 2 ^ e := by positivity
      rw [Nat.cast_natAbs, Int.cast_abs, ← hn, toRat]
      cases negative with
      | false => simp [abs_of_nonneg hpos]
      | true => simp [abs_of_nonneg hpos]
    have hnum : (quotient m e).1 = n.natAbs * (quotient m e).2 := by
      have hcast := quotient_num m e
      rw [hsize] at hcast
      exact_mod_cast hcast
    simp [toInt?, hnum] at hint

theorem toInt?_eq_none_iff (hfinite : x.isFinite) :
    x.toInt? = none ↔ ¬∃ n : Int, x.toRat = n := by
  rw [Option.eq_none_iff_forall_ne_some, not_exists]
  exact forall_congr' fun n => not_congr (toInt?_eq_some_iff hfinite)

/-- A positive number is a double in one way only. -/
theorem eq_of_placed {m n : Nat} {e f : Int} (hm : IsPlaced m e) (hn : IsPlaced n f)
    (h : (m * 2 ^ e : ℚ) = n * 2 ^ f) : m = n ∧ e = f := by
  rcases lt_trichotomy e f with hlt | rfl | hlt
  · exact absurd h (ne_of_lt (lt_of_exponent_lt hm hn hlt))
  · have hcancel : (m : ℚ) = n := mul_right_cancel₀ (by positivity) h
    exact ⟨by exact_mod_cast hcancel, rfl⟩
  · exact absurd h.symm (ne_of_lt (lt_of_exponent_lt hn hm hlt))

/-- But for zero, a number is a double in one way only. -/
theorem eq_of_toRat_eq (hfinite : x.isFinite) (hfinite' : y.isFinite) (hne : x.toRat ≠ 0)
    (h : x.toRat = y.toRat) : x = y := by
  obtain ⟨negative, m, e, hx, rfl⟩ := exists_eq_finite hfinite
  obtain ⟨negative', n, f, hy, rfl⟩ := exists_eq_finite hfinite'
  have hpos : (0 : ℚ) ≤ m * 2 ^ e := by positivity
  have hpos' : (0 : ℚ) ≤ n * 2 ^ f := by positivity
  obtain ⟨rfl, hsize⟩ : negative = negative' ∧ (m * 2 ^ e : ℚ) = n * 2 ^ f := by
    cases negative with
    | false =>
      cases negative' with
      | false => exact ⟨rfl, by simpa [toRat] using h⟩
      | true =>
        simp only [toRat, if_true, Bool.false_eq_true, if_false] at h hne
        exact absurd (by linarith) hne
    | true =>
      cases negative' with
      | false =>
        simp only [toRat, if_true, Bool.false_eq_true, if_false] at h hne
        exact absurd (by linarith) hne
      | true => exact ⟨rfl, by simpa [toRat] using h⟩
  obtain ⟨rfl, rfl⟩ := eq_of_placed (isPlaced_of_inRange hx) (isPlaced_of_inRange hy) hsize
  rfl

theorem numeral?_of_toInt? (h : x.toInt? = some n) : x.numeral? = some (integerText n) := by
  cases x with
  | finite negative m e inRange => simp [numeral?, h]
  | nan => simp [toInt?] at h
  | infinite negative => simp [toInt?] at h

/-- Equal doubles have one numeral. -/
theorem numeral?_eq_of_toRat_eq (hfinite : x.isFinite) (hfinite' : y.isFinite)
    (h : x.toRat = y.toRat) : x.numeral? = y.numeral? := by
  cases hint : x.toInt? with
  | some n =>
    have hint' : y.toInt? = some n :=
      (toInt?_eq_some_iff hfinite').mpr (h ▸ toRat_of_toInt? hint)
    rw [numeral?_of_toInt? hint, numeral?_of_toInt? hint']
  | none =>
    have hne : x.toRat ≠ 0 := fun hzero =>
      (toInt?_eq_none_iff hfinite).mp hint ⟨0, by rw [hzero, Int.cast_zero]⟩
    rw [eq_of_toRat_eq hfinite hfinite' hne h]

section Fraction

variable {negative : Bool} {m : Nat} {e : Int} {inRange : InRange m e}

theorem numeral?_of_toInt?_eq_none (h : toInt? (.finite negative m e inRange) = none) :
    numeral? (.finite negative m e inRange) =
      some (signText negative ++ (Decimal.shortest m e).positional) := by
  simp [numeral?, h]

/-- The shortest decimal of a double that is no integer has digits behind the point. -/
theorem shortest_of_toInt?_eq_none (h : toInt? (.finite negative m e inRange) = none) :
    (Decimal.shortest m e).digits ≠ 0 ∧ (Decimal.shortest m e).exponent < 0 := by
  obtain ⟨hm, hmod, hrounds⟩ := rounds_of_toInt?_eq_none h
  constructor
  · intro hzero
    have hpos := hrounds.pos hm
    simp [Decimal.toRat, hzero] at hpos
  · -- otherwise the decimal would be an integer, and so would the double it rounds to
    by_contra hexponent
    obtain ⟨k, hk⟩ := Int.eq_ofNat_of_zero_le (not_lt.mp hexponent)
    have hinteger : (Decimal.shortest m e).toRat =
        (((Decimal.shortest m e).digits * 10 ^ k : Nat) : Int) := by
      rw [Decimal.toRat, hk]
      push_cast
      rw [zpow_natCast]
    rw [hinteger] at hrounds
    exact hmod hrounds.mod_eq_zero

/-- The numeral of a double that is no integer has a point. -/
theorem isNumeral_of_toInt?_eq_none (h : toInt? (.finite negative m e inRange) = none) :
    IsNumeral (signText negative ++ (Decimal.shortest m e).positional) ∧
      '.' ∈ signText negative ++ (Decimal.shortest m e).positional := by
  obtain ⟨hdigits, hexponent⟩ := shortest_of_toInt?_eq_none h
  obtain ⟨whole, fraction, htext, hwhole, hfraction⟩ := Decimal.exists_positional hdigits hexponent
  rw [htext, ← List.append_assoc]
  refine ⟨⟨negative, whole, fraction, rfl, hwhole, .inr hfraction⟩, ?_⟩
  obtain ⟨digits, rfl, -, -⟩ := hfraction
  simp

/-- The literal of a double that is no integer denotes its shortest decimal. -/
theorem literalNumber?_literal (h : toInt? (.finite negative m e inRange) = none) :
    literalNumber? (literal (.finite negative m e inRange)) =
      some (written (.finite negative m e inRange)) := by
  have hm := (rounds_of_toInt?_eq_none h).1
  have hnumeral := (isNumeral_of_toInt?_eq_none h).1
  have hexponent := (shortest_of_toInt?_eq_none h).2
  rw [written_of_toInt?_eq_none h]
  obtain ⟨k, rfl⟩ := Nat.exists_eq_succ_of_ne_zero hm
  unfold literal
  simp only
  split
  · exact Decimal.literalNumber?_scientific _ _
  · rw [if_neg (not_le.mpr hexponent), literalNumber?_of_not_mem fun hmem => ?_]
    · exact number?_signText _ (unsigned?_positional _)
    · rcases hnumeral.mem hmem with h | h | h <;> simp [Char.isDigit] at h

end Fraction

/-- A number rounds to a double. -/
def IsNearest (q : ℚ) : Double → Prop
  | .finite negative m e _ => Rounds m e (if negative then -q else q)
  | _ => False

/-- What is written for a double that is no integer rounds to it. -/
theorem isNearest_written {negative : Bool} {m : Nat} {e : Int} {inRange : InRange m e}
    (h : toInt? (.finite negative m e inRange) = none) :
    IsNearest (written (.finite negative m e inRange)) (.finite negative m e inRange) := by
  obtain ⟨-, -, hrounds⟩ := rounds_of_toInt?_eq_none h
  rw [written_of_toInt?_eq_none h, IsNearest]
  cases negative with
  | false => simpa using hrounds
  | true => simpa using hrounds

end Double

/-! ### Numbers -/

namespace Value

/-- An integer that is short enough to be written, or a finite double. -/
def IsNumber : Value → Prop
  | .int n => withinDigitLimit n
  | .float x => x.isFinite
  | _ => False

/-- The number that a value is. -/
def toRat : Value → ℚ
  | .int n => n
  | .float x => x.toRat
  | _ => 0

/-- Whether a value is an integer as a number. -/
def IsInteger (v : Value) : Prop := ∃ n : Int, v.toRat = n

variable {v w : Value}

theorem IsNumber.cases (h : v.IsNumber) :
    (∃ n, v = .int n ∧ withinDigitLimit n) ∨ ∃ x, v = .float x ∧ x.isFinite := by
  unfold IsNumber at h
  split at h
  · exact .inl ⟨_, rfl, h⟩
  · exact .inr ⟨_, rfl, h⟩
  · exact absurd h id

/-- A number that is an integer is written as one. -/
theorem numeral_of_toRat_eq {n : Int} (h : v.IsNumber) (hn : v.toRat = n) :
    v.numeral = .ok (integerText n) := by
  rcases h.cases with ⟨k, rfl, hk⟩ | ⟨x, rfl, hfinite⟩
  · obtain rfl : k = n := by exact_mod_cast (show (k : ℚ) = n from hn)
    simp [numeral, hk]
  · simp [numeral, Double.numeral?_of_toInt? ((Double.toInt?_eq_some_iff hfinite).mpr hn)]

/-- A number that is no integer is a double, and is written by its shortest digits. -/
theorem exists_of_not_isInteger (h : v.IsNumber) (hinteger : ¬v.IsInteger) :
    ∃ negative m e inRange, v = .float (.finite negative m e inRange) ∧
      Double.toInt? (.finite negative m e inRange) = none ∧
      v.numeral = .ok (signText negative ++ (Decimal.shortest m e).positional) := by
  rcases h.cases with ⟨k, rfl, -⟩ | ⟨x, rfl, hfinite⟩
  · exact absurd ⟨k, rfl⟩ hinteger
  · have hint := (Double.toInt?_eq_none_iff hfinite).mpr hinteger
    obtain ⟨negative, m, e, inRange, rfl⟩ := Double.exists_eq_finite hfinite
    exact ⟨negative, m, e, inRange, rfl, hint,
      by simp [numeral, Double.numeral?_of_toInt?_eq_none hint]⟩

theorem integerText_injective {n k : Int} (h : integerText n = integerText k) : n = k := by
  have hread := congrArg number? h
  rw [number?_integerText, number?_integerText, Option.some.injEq] at hread
  exact_mod_cast hread

/-- What is written as an integer is that integer. -/
theorem numeral_eq_integerText_iff {n : Int} (h : v.IsNumber) :
    v.numeral = .ok (integerText n) ↔ v.toRat = n := by
  refine ⟨fun htext => ?_, numeral_of_toRat_eq h⟩
  by_cases hinteger : v.IsInteger
  · obtain ⟨k, hk⟩ := hinteger
    rw [numeral_of_toRat_eq h hk, Except.ok.injEq] at htext
    rw [hk, integerText_injective htext]
  · obtain ⟨negative, m, e, _, -, hint, hnumeral⟩ := exists_of_not_isInteger h hinteger
    rw [hnumeral, Except.ok.injEq] at htext
    -- only the other one has a point
    have hpoint := (Double.isNumeral_of_toInt?_eq_none hint).2
    rw [htext] at hpoint
    exact absurd hpoint (isNumeral_integerText n).2

/-- Numbers are written alike exactly when they are equal. -/
theorem numeral_eq_iff (hv : v.IsNumber) (hw : w.IsNumber) :
    v.numeral = w.numeral ↔ v.toRat = w.toRat := by
  by_cases hinteger : v.IsInteger
  · obtain ⟨n, hn⟩ := hinteger
    rw [numeral_of_toRat_eq hv hn, hn, eq_comm, numeral_eq_integerText_iff hw, eq_comm]
  by_cases hinteger' : w.IsInteger
  · obtain ⟨n, hn⟩ := hinteger'
    rw [numeral_of_toRat_eq hw hn, hn, numeral_eq_integerText_iff hv]
  obtain ⟨negative, m, e, hx, rfl, hint, htext⟩ := exists_of_not_isInteger hv hinteger
  obtain ⟨negative', n, f, hy, rfl, hint', htext'⟩ := exists_of_not_isInteger hw hinteger'
  have hdigits := Double.numeral?_of_toInt?_eq_none hint
  have hdigits' := Double.numeral?_of_toInt?_eq_none hint'
  rw [htext, htext', Except.ok.injEq]
  constructor
  · intro h
    have hread := Double.number?_numeral hdigits
    rw [h, Double.number?_numeral hdigits', Option.some.injEq] at hread
    exact Double.toRat_eq_of_written_eq rfl rfl hread.symm
  · intro h
    have hsame : Double.numeral? (.finite negative m e hx) =
        Double.numeral? (.finite negative' n f hy) := Double.numeral?_eq_of_toRat_eq rfl rfl h
    rwa [hdigits, hdigits', Option.some.injEq] at hsame

/-- A text is what is written for a number, and denotes it. -/
structure IsExact (v : Value) (text : List Char) : Prop where
  numeral_eq : v.numeral = .ok text
  /-- In an attribute the number is written the same way. -/
  encode_eq : ∀ style path, v.encode style path = .ok (.inline text)
  isNumeral : IsNumeral text
  /-- There is a point exactly when there is something to write behind it. -/
  point_iff : '.' ∈ text ↔ ¬v.IsInteger
  /-- An integer is denoted exactly. -/
  integer : v.IsInteger → number? text = some v.toRat
  /-- Another number is denoted by the decimal of its literal, which rounds to it. -/
  fraction : ¬v.IsInteger → ∃ x q, v = .float x ∧ literalNumber? x.literal = some q ∧
    x.IsNearest q ∧ number? text = some q
  /-- No other number is written the same way. -/
  alike : ∀ w : Value, w.IsNumber → (w.numeral = .ok text ↔ w.toRat = v.toRat)

theorem encode_of_numeral {text : List Char} (h : v.IsNumber) (htext : v.numeral = .ok text)
    (style : Style) (path : Path) : v.encode style path = .ok (.inline text) := by
  rcases h.cases with ⟨n, rfl, hn⟩ | ⟨x, rfl, hfinite⟩
  · simp only [numeral, hn, if_true, Except.ok.injEq] at htext
    simp [encode, toNode, render, scalarText, hn, htext, bind, Except.bind, pure, Except.pure]
  · obtain ⟨digits, hdigits⟩ := Double.exists_numeral hfinite
    simp only [numeral, hdigits, Except.ok.injEq] at htext
    simp [encode, toNode, render, scalarText, hfinite, hdigits, htext, bind, Except.bind, pure,
      Except.pure]

/-- **Numbers are written exactly.** -/
theorem numeral_exact (h : v.IsNumber) : ∃ text, v.IsExact text := by
  by_cases hinteger : v.IsInteger
  · obtain ⟨n, hn⟩ := hinteger
    have htext := numeral_of_toRat_eq h hn
    obtain ⟨hform, hpoint⟩ := isNumeral_integerText n
    have hread : number? (integerText n) = some v.toRat := by rw [number?_integerText, hn]
    exact ⟨integerText n,
      { numeral_eq := htext
        encode_eq := encode_of_numeral h htext
        isNumeral := hform
        point_iff := by simp [hpoint, show v.IsInteger from ⟨n, hn⟩]
        integer := fun _ => hread
        fraction := fun hnot => absurd ⟨n, hn⟩ hnot
        alike := fun w hw => by rw [← htext, numeral_eq_iff hw h] }⟩
  · obtain ⟨negative, m, e, inRange, rfl, hint, htext⟩ := exists_of_not_isInteger h hinteger
    obtain ⟨hform, hpoint⟩ := Double.isNumeral_of_toInt?_eq_none hint
    have hread : number? (signText negative ++ (Decimal.shortest m e).positional) =
        some (Double.written (.finite negative m e inRange)) :=
      Double.number?_numeral (Double.numeral?_of_toInt?_eq_none hint)
    exact ⟨_,
      { numeral_eq := htext
        encode_eq := encode_of_numeral h htext
        isNumeral := hform
        point_iff := by simp only [hpoint, hinteger, not_false_eq_true]
        integer := fun hinteger' => absurd hinteger' hinteger
        fraction := fun _ => ⟨_, _, rfl, Double.literalNumber?_literal hint,
          Double.isNearest_written hint, hread⟩
        alike := fun w hw => by rw [← htext, numeral_eq_iff hw h] }⟩

/-- The double next to `10 ^ 23` is written with all its digits, and one next to a ten millionth
without an exponent. -/
theorem numeral_exact_extremes :
    let large : Double := .finite false 5960464477539062 24 (by decide)
    let small : Double := .finite true 7555786372591432 (-76) (by decide)
    (Value.float large).IsNumber ∧ (Value.float small).IsNumber ∧
      (Value.float large).IsExact "99999999999999991611392".toList ∧
      (Value.float small).IsExact "-0.0000001".toList := by
  intro large small
  have hdigits : large.numeral? = some "99999999999999991611392".toList := by decide +kernel
  have hdigits' : small.numeral? = some "-0.0000001".toList := by decide +kernel
  obtain ⟨text, hexact⟩ := @numeral_exact (.float large) rfl
  obtain ⟨text', hexact'⟩ := @numeral_exact (.float small) rfl
  have htext := hexact.numeral_eq
  have htext' := hexact'.numeral_eq
  simp only [numeral, hdigits, hdigits', Except.ok.injEq] at htext htext'
  exact ⟨rfl, rfl, htext ▸ hexact, htext' ▸ hexact'⟩

end Value

end Stanza
