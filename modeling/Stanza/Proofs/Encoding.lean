import Stanza.Text.Encoding

/-!
Texts read back from their bytes.

The bytes of a character begin with one that tells how many follow, and each of these adds six bits.
So what `decode` finds in front of any bytes is the character that was written there
(`Text.decode_encodeChar_append`), and a text is read back from the bytes it is written as
(`Text.decode_encode`).
-/

namespace Stanza.Text

theorem toNat_ofNat_of_lt {n : Nat} (h : n < 256) : (UInt8.ofNat n).toNat = n := by
  rw [UInt8.toNat_ofNat']
  exact Nat.mod_eq_of_lt h

/-- The six bits that a byte of a sequence holds. -/
theorem toNat_tail (n k : Nat) : (UInt8.ofNat (0x80 + n / k % 64)).toNat = 0x80 + n / k % 64 :=
  toNat_ofNat_of_lt (by omega)

theorem isContinuation_tail (n k : Nat) :
    isContinuation (UInt8.ofNat (0x80 + n / k % 64)) = true := by
  rw [isContinuation, decide_eq_true_iff, toNat_tail]
  omega

theorem continued_of_toNat {code bits : Nat} {b : UInt8} (h : b.toNat = 0x80 + bits) :
    continued code b = code * 64 + bits := by
  unfold continued
  omega

theorem continued_tail (code n k : Nat) :
    continued code (UInt8.ofNat (0x80 + n / k % 64)) = code * 64 + n / k % 64 :=
  continued_of_toNat (toNat_tail n k)

/-- A character is read from its bytes, whatever follows them. -/
theorem decode_encodeChar_append (c : Char) (rest : List UInt8) :
    decode (encodeChar c ++ rest) = (decode rest).map (c :: ·) := by
  have hvalid : c.toNat < 0xd800 ∨ 0xdfff < c.toNat ∧ c.toNat < 0x110000 := by
    have hvalid := c.valid
    simp only [UInt32.isValidChar, Nat.isValidChar] at hvalid
    exact hvalid
  have hchar : Char.ofNat c.toNat = c := Char.ofNat_toNat c
  unfold encodeChar
  generalize hn : c.toNat = n at *
  simp only
  split
  · have hfirst := @toNat_ofNat_of_lt n (by omega)
    rw [List.singleton_append, decode.eq_def]
    simp only [hfirst]
    rw [if_pos (by omega), hchar]
  split
  · have hfirst := @toNat_ofNat_of_lt (0xc0 + n / 64) (by omega)
    have hcode : n / 64 * 64 + n / 1 % 64 = n := by omega
    rw [List.cons_append, List.singleton_append, decode, hfirst, if_neg (by omega),
      if_neg (by omega), if_pos (by omega)]
    simp only [isContinuation_tail, continued_tail, Nat.add_sub_cancel_left, hcode, hchar, if_true]
  split
  · have hfirst := @toNat_ofNat_of_lt (0xe0 + n / 4096) (by omega)
    have hcode : (n / 4096 * 64 + n / 64 % 64) * 64 + n / 1 % 64 = n := by omega
    rw [List.cons_append, List.cons_append, List.singleton_append, decode, hfirst,
      if_neg (by omega), if_neg (by omega), if_neg (by omega), if_pos (by omega)]
    have hlower : 0x800 ≤ n := by omega
    have hproper : ¬(0xd800 ≤ n ∧ n ≤ 0xdfff) := by omega
    simp only [isContinuation_tail, continued_tail, Nat.add_sub_cancel_left, hcode, hchar]
    simp [hlower, hproper]
  · have hfirst := @toNat_ofNat_of_lt (0xf0 + n / 262144) (by omega)
    have hcode :
        ((n / 262144 * 64 + n / 4096 % 64) * 64 + n / 64 % 64) * 64 + n / 1 % 64 = n := by omega
    have hrange : 0x10000 ≤ n ∧ n ≤ 0x10ffff := by omega
    rw [List.cons_append, List.cons_append, List.cons_append, List.singleton_append, decode,
      hfirst, if_neg (by omega), if_neg (by omega), if_neg (by omega), if_neg (by omega),
      if_pos (by omega)]
    simp only [isContinuation_tail, continued_tail, Nat.add_sub_cancel_left, hcode, hchar]
    simp [hrange]

/-- A text is read back from its bytes. -/
theorem decode_encode (text : List Char) : decode (encode text) = some text := by
  induction text with
  | nil => rw [encode, List.flatMap_nil, decode]
  | cons c rest ih =>
    rw [encode] at ih ⊢
    rw [List.flatMap_cons, decode_encodeChar_append, ih, Option.map_some]

end Stanza.Text
