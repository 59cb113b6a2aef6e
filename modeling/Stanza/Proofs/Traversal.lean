import Stanza.Value.Render

/-!
Names of references.

The name of a reference is a row of identifiers with dots between them. What is written for it, the
name itself or the name of a variable, is made of `isWordChar`s only and begins with a letter or an
underscore (`all_referenceChars`, `head_referenceChars`), so nothing in it can be taken for a quote,
a bracket or the end of a splice.
-/

namespace Stanza

namespace Text

/-- Whether a text is a row of identifiers with dots between them. -/
def isDotted (name : List Char) : Bool := (name.splitOn '.').all isIdentifier

/-- The characters that identifiers, references and numbers are made of. -/
def isWordChar (c : Char) : Bool := isIdentifierRest c || c = '.'

theorem toNat_of_isIdentifierStart {c : Char} (h : isIdentifierStart c) :
    0x41 ≤ c.toNat ∧ c.toNat ≤ 0x7a := by
  rcases (by simpa [isIdentifierStart] using h : c.isAlpha = true ∨ c = '_') with h | rfl
  · change (decide ('A'.val ≤ c.val ∧ c.val ≤ 'Z'.val) ||
      decide ('a'.val ≤ c.val) && decide (c.val ≤ 'z'.val)) = true at h
    simp only [Bool.or_eq_true, Bool.and_eq_true, decide_eq_true_eq,
      UInt32.le_iff_toNat_le] at h
    change (65 ≤ c.toNat ∧ c.toNat ≤ 90) ∨ (97 ≤ c.toNat ∧ c.toNat ≤ 122) at h
    omega
  · decide

theorem isIdentifierRest_of_start {c : Char} (h : isIdentifierStart c) : isIdentifierRest c := by
  rcases (by simpa [isIdentifierStart] using h : c.isAlpha = true ∨ c = '_') with h | h
  · simp [isIdentifierRest, Char.isAlphanum, h]
  · simp [isIdentifierRest, h]

theorem isIdentifier_iff {name : List Char} :
    isIdentifier name ↔ (∃ c, name.head? = some c ∧ isIdentifierStart c) ∧
      ∀ c ∈ name, isIdentifierRest c := by
  cases name with
  | nil => simp [isIdentifier]
  | cons c rest =>
    simp only [isIdentifier, Bool.and_eq_true, List.all_eq_true, List.head?_cons,
      Option.some.injEq, exists_eq_left', List.forall_mem_cons]
    exact ⟨fun h => ⟨h.1, isIdentifierRest_of_start h.1, h.2⟩, fun h => ⟨h.1, h.2.2⟩⟩

theorem all_isWordChar_of_isIdentifier {name : List Char} (h : isIdentifier name) :
    ∀ c ∈ name, isWordChar c := by
  intro c hc
  simp [isWordChar, (isIdentifier_iff.mp h).2 c hc]

/-- The characters of a row of names are those of the names and the dots. -/
theorem mem_intercalate_dot {c : Char} {names : List (List Char)}
    (h : c ∈ ['.'].intercalate names) : c = '.' ∨ ∃ name ∈ names, c ∈ name := by
  simp only [List.intercalate, List.mem_flatten] at h
  obtain ⟨part, hpart, hc⟩ := h
  induction names with
  | nil => simp at hpart
  | cons name names ih =>
    cases names with
    | nil => exact .inr ⟨name, by simp_all⟩
    | cons other names =>
      rw [List.intersperse_cons_cons, List.mem_cons, List.mem_cons] at hpart
      rcases hpart with rfl | rfl | hpart
      · exact .inr ⟨part, by simp, hc⟩
      · exact .inl (by simpa using hc)
      · rcases ih hpart with hdot | ⟨name', hmem, hc'⟩
        · exact .inl hdot
        · exact .inr ⟨name', List.mem_cons_of_mem _ hmem, hc'⟩

theorem all_isWordChar_of_isDotted {name : List Char} (h : isDotted name) :
    ∀ c ∈ name, isWordChar c := by
  intro c hc
  have hparts : ['.'].intercalate (name.splitOn '.') = name := List.intercalate_splitOn '.'
  rw [← hparts] at hc
  rcases mem_intercalate_dot hc with rfl | ⟨part, hpart, hc⟩
  · simp [isWordChar]
  · exact all_isWordChar_of_isIdentifier (List.all_eq_true.mp h part hpart) c hc

theorem head_of_isDotted {name : List Char} (h : isDotted name) :
    ∃ c, name.head? = some c ∧ isIdentifierStart c := by
  cases name with
  | nil => simp [isDotted, isIdentifier] at h
  | cons c rest =>
    refine ⟨c, rfl, ?_⟩
    -- the first part of the row begins with the first character, unless that is a dot
    rw [isDotted, List.splitOn_cons_eq_if_modifyHead] at h
    split at h
    · simp [isIdentifier] at h
    · cases hparts : rest.splitOn '.' with
      | nil => exact absurd hparts (List.splitOn_ne_nil _ _)
      | cons part parts =>
        rw [hparts] at h
        simp only [List.modifyHead_cons, List.all_cons, isIdentifier, Bool.and_eq_true] at h
        exact h.1.1

theorem ne_empty_of_isDotted {name : String} (h : isDotted name.toList) : name ≠ "" := by
  rintro rfl
  exact absurd h (by decide)

end Text

open Text

theorem all_referenceChars {name : List Char} (h : isDotted name) :
    ∀ c ∈ referenceChars name, isWordChar c := by
  intro c hc
  unfold referenceChars at hc
  split at hc
  · exact all_isWordChar_of_isDotted h c hc
  · rcases List.mem_append.mp hc with hc | hc
    · have hvar : "var.".toList.all isWordChar := by decide
      exact List.all_eq_true.mp hvar c hc
    · exact all_isWordChar_of_isDotted h c hc

theorem head_referenceChars {name : List Char} (h : isDotted name) :
    ∃ c, (referenceChars name).head? = some c ∧ isIdentifierStart c := by
  unfold referenceChars
  split
  · exact head_of_isDotted h
  · exact ⟨'v', by simp, by decide⟩

/-- What is written for a reference is a row of identifiers too. -/
theorem isDotted_referenceChars {name : List Char} (h : isDotted name) :
    isDotted (referenceChars name) := by
  unfold referenceChars
  split
  · exact h
  · have hvar : isIdentifier ['v', 'a', 'r'] := by decide
    simpa [isDotted, List.splitOn_cons_eq_if_modifyHead, hvar] using h

/-- What is written for a reference has a dot in it, so it is no identifier. -/
theorem dot_mem_referenceChars (name : List Char) : '.' ∈ referenceChars name := by
  unfold referenceChars
  split
  · simpa using ‹name.contains '.'›
  · simp

end Stanza
