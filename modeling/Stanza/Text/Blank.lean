/-!
Blank characters and the words between them.

A character is blank when it has the Unicode property White_Space or is one of the four
information separators of ASCII, which are no white space. `words` cuts a text at its blanks and
keeps what lies between them, so no word is empty and none holds a blank.
-/

namespace Stanza.Text

/-- Whether a character is white space. -/
def isWhite (c : Char) : Bool :=
  let n := c.toNat
  decide (0x09 ≤ n ∧ n ≤ 0x0d) || decide (0x2000 ≤ n ∧ n ≤ 0x200a) ||
    [0x20, 0x85, 0xa0, 0x1680, 0x2028, 0x2029, 0x202f, 0x205f, 0x3000].contains n

/-- Whether a character separates words. -/
def isBlank (c : Char) : Bool := isWhite c || decide (0x1c ≤ c.toNat ∧ c.toNat ≤ 0x1f)

/-- What lies before the first blank, between two blanks, and after the last one. -/
def fields : List Char → List (List Char)
  | [] => [[]]
  | c :: rest =>
      if isBlank c then [] :: fields rest
      else match fields rest with
        | [] => [[c]]
        | field :: others => (c :: field) :: others

/-- The words of a text. -/
def words (text : List Char) : List (List Char) :=
  (fields text).filter fun field => !field.isEmpty

/-- A text is blank when every character of it is. -/
def allBlank (text : List Char) : Bool := text.all isBlank

theorem fields_ne_nil (text : List Char) : fields text ≠ [] := by
  cases text with
  | nil => simp [fields]
  | cons c rest =>
    unfold fields
    split
    · simp
    · split <;> simp

/-- No word is empty. -/
theorem ne_nil_of_mem_words {text word : List Char} (mem : word ∈ words text) : word ≠ [] := by
  simpa [words] using (List.mem_filter.mp mem).2

end Stanza.Text
