import Stanza.Number.Decimal
import Stanza.Proofs.Traversal

/-!
The characters that numbers are written with.

Every character of a number is a digit, the point or the sign, so a number is written as one word
(`all_isWordChar_integerText`, `all_isWordChar_numeral`).
-/

namespace Stanza

open Text

theorem isWordChar_of_isDigit {c : Char} (h : c.isDigit) : isWordChar c := by
  simp [isWordChar, isIdentifierRest, Char.isAlphanum, h]

theorem isDigit_of_mem_toDigits {n : Nat} {c : Char} (h : c ∈ Nat.toDigits 10 n) : c.isDigit :=
  Nat.isDigit_of_mem_toDigits (by decide) (by decide) h

theorem all_isWordChar_toDigits (n : Nat) : ∀ c ∈ Nat.toDigits 10 n, isWordChar c :=
  fun _ hc => isWordChar_of_isDigit (isDigit_of_mem_toDigits hc)

theorem all_isWordChar_signText (negative : Bool) : ∀ c ∈ signText negative, isWordChar c := by
  have hsign : (signText negative).all isWordChar := by
    cases negative
    · rfl
    · rfl
  exact List.all_eq_true.mp hsign

theorem all_isWordChar_integerText (n : Int) : ∀ c ∈ integerText n, isWordChar c := by
  intro c hc
  rcases List.mem_append.mp hc with hc | hc
  · exact all_isWordChar_signText _ c hc
  · exact all_isWordChar_toDigits _ c hc

theorem all_isWordChar_positional (x : Decimal) : ∀ c ∈ x.positional, isWordChar c := by
  intro c hc
  have hdigits := all_isWordChar_toDigits x.digits
  have hzero : ∀ n, c ∈ List.replicate n '0' → isWordChar c := by
    intro n hmem
    rw [List.eq_of_mem_replicate hmem]
    decide
  unfold Decimal.positional at hc
  simp only at hc
  split at hc
  · rcases List.mem_append.mp hc with hc | hc
    · exact hdigits c hc
    · exact hzero _ hc
  · split at hc
    · rcases List.mem_append.mp hc with hc | hc
      · exact hdigits c (List.mem_of_mem_take hc)
      · rcases List.mem_cons.mp hc with rfl | hc
        · decide
        · exact hdigits c (List.mem_of_mem_drop hc)
    · rcases List.mem_cons.mp hc with rfl | hc
      · decide
      · rcases List.mem_cons.mp hc with rfl | hc
        · decide
        · rcases List.mem_append.mp hc with hc | hc
          · exact hzero _ hc
          · exact hdigits c hc

theorem all_isWordChar_numeral {x : Double} {digits : List Char} (h : x.numeral? = some digits) :
    ∀ c ∈ digits, isWordChar c := by
  unfold Double.numeral? at h
  split at h
  · split at h
    · obtain rfl := Option.some.inj h
      exact all_isWordChar_integerText _
    · obtain rfl := Option.some.inj h
      intro c hc
      rcases List.mem_append.mp hc with hc | hc
      · exact all_isWordChar_signText _ c hc
      · exact all_isWordChar_positional _ c hc
  · simp at h

end Stanza
