import Stanza.Proofs.Layout.Shape
import Mathlib.Data.List.Forall2

/-!
What a laid out text consists of.

A `Lexeme` is a mark or a text that belongs together: a word, a quoted string, a raw expression.
`Laid lexemes text` says that a text is these lexemes in a row, with nothing but spaces and line
feeds between them, and that no text of a lexeme runs into a word behind it. The lexemes of a shape
(`Shape.lexemes`) know nothing of lines, and every layout of the shape is laid out from them
(`Shape.laidFrom_layout`), whatever the style, the width of the indentation and the level.
-/

namespace Stanza

/-- A mark, or a text that belongs together. -/
inductive Lexeme where
  | mark (c : Char)
  | text (chars : List Char)
  deriving DecidableEq, Repr, Inhabited

/-- A lexeme as it is written. -/
def Lexeme.chars : Lexeme → List Char
  | .mark c => [c]
  | .text chars => chars

/-- A text does not go on with a word. -/
def Breaks (text : List Char) : Prop := ∀ c, text.head? = some c → Text.isWordChar c = false

/-- A text is some lexemes in a row, with spaces and line feeds between them. -/
inductive Laid : List Lexeme → List Char → Prop where
  | nil : Laid [] []
  | blank {c : Char} {lexemes : List Lexeme} {text : List Char} :
      c = ' ' ∨ c = '\n' → Laid lexemes text → Laid lexemes (c :: text)
  | mark {c : Char} {lexemes : List Lexeme} {text : List Char} :
      Laid lexemes text → Laid (.mark c :: lexemes) (c :: text)
  | text (chars : List Char) {lexemes : List Lexeme} {text : List Char} :
      Breaks text → Laid lexemes text → Laid (.text chars :: lexemes) (chars ++ text)

theorem breaks_nil : Breaks [] := by simp [Breaks]

theorem breaks_cons {c : Char} (h : Text.isWordChar c = false) (text : List Char) :
    Breaks (c :: text) := by
  simpa [Breaks] using h

theorem Breaks.append {text rest : List Char} (h : Breaks text) (hrest : Breaks rest) :
    Breaks (text ++ rest) := by
  cases text with
  | nil => exact hrest
  | cons c text => exact breaks_cons (h c rfl) _

theorem Breaks.of_append {text rest : List Char} (h : Breaks (text ++ rest)) : Breaks text := by
  cases text with
  | nil => exact breaks_nil
  | cons c text => exact breaks_cons (h c rfl) text

theorem breaks_replicate (n : Nat) : Breaks (List.replicate n ' ') := by
  cases n with
  | zero => exact breaks_nil
  | succ n => exact breaks_cons (by decide) _

namespace Laid

variable {a b : List Lexeme} {s t : List Char}

/-- Laid out texts in a row, of which the second does not go on with a word. -/
theorem append (ha : Laid a s) (hb : Laid b t) (hbreaks : Breaks t) : Laid (a ++ b) (s ++ t) := by
  induction ha with
  | nil => exact hb
  | blank hc _ ih => exact .blank hc ih
  | mark _ ih => exact .mark ih
  | text chars hs _ ih =>
    rw [List.append_assoc]
    exact .text chars (hs.append hbreaks) ih

theorem spaces (n : Nat) (h : Laid a s) : Laid a (List.replicate n ' ' ++ s) := by
  induction n with
  | zero => exact h
  | succ n ih => exact .blank (.inl rfl) ih

theorem single (chars : List Char) : Laid [.text chars] chars := by
  simpa using Laid.text chars breaks_nil .nil

/-- A mark that ends no word comes right behind what it closes. -/
theorem concat {c : Char} (h : Laid a s) (hc : Text.isWordChar c = false) (n : Nat) :
    Laid (a ++ [.mark c]) (s ++ (List.replicate n ' ' ++ [c])) :=
  h.append (Laid.spaces n (.mark .nil)) ((breaks_replicate n).append (breaks_cons hc []))

/-- Where there is no lexeme there are only blanks. -/
theorem blank_of_nil (h : Laid [] s) : ∀ c ∈ s, c = ' ' ∨ c = '\n' := by
  generalize hnone : ([] : List Lexeme) = lexemes at h
  induction h with
  | nil => simp
  | blank hc _ ih => exact List.forall_mem_cons.mpr ⟨hc, ih hnone⟩
  | mark => simp at hnone
  | text => simp at hnone

/-- A text begins with blanks and the first of its lexemes. -/
theorem of_cons {lexeme : Lexeme} (h : Laid (lexeme :: a) s) :
    ∃ before rest, s = before ++ (lexeme.chars ++ rest) ∧ Laid [] before ∧ Laid a rest := by
  generalize hall : lexeme :: a = lexemes at h
  induction h with
  | nil => simp at hall
  | @blank c _ _ hc _ ih =>
    obtain ⟨before, rest, rfl, hbefore, hrest⟩ := ih hall
    exact ⟨c :: before, rest, rfl, .blank hc hbefore, hrest⟩
  | mark hrest =>
    obtain ⟨rfl, rfl⟩ := List.cons.inj hall
    exact ⟨[], _, rfl, .nil, hrest⟩
  | text _ _ hrest =>
    obtain ⟨rfl, rfl⟩ := List.cons.inj hall
    exact ⟨[], _, rfl, .nil, hrest⟩

/-- A text of lexemes in a row falls into the texts of two parts of the row. -/
theorem of_append (h : Laid (a ++ b) s) : ∃ t u, s = t ++ u ∧ Laid a t ∧ Laid b u := by
  generalize hall : a ++ b = lexemes at h
  induction h generalizing a with
  | nil =>
    obtain ⟨rfl, rfl⟩ := List.append_eq_nil_iff.mp hall
    exact ⟨[], [], rfl, .nil, .nil⟩
  | @blank c _ _ hc _ ih =>
    obtain ⟨t, u, rfl, ht, hu⟩ := ih hall
    exact ⟨c :: t, u, rfl, .blank hc ht, hu⟩
  | @mark c _ _ hrest ih =>
    cases a with
    | nil =>
      obtain rfl : b = _ := hall
      exact ⟨[], _, rfl, .nil, .mark hrest⟩
    | cons lexeme a =>
      obtain ⟨rfl, hothers⟩ := List.cons.inj hall
      obtain ⟨t, u, rfl, ht, hu⟩ := ih hothers
      exact ⟨c :: t, u, rfl, .mark ht, hu⟩
  | text chars hbreaks hrest ih =>
    cases a with
    | nil =>
      obtain rfl : b = _ := hall
      exact ⟨[], _, rfl, .nil, .text chars hbreaks hrest⟩
    | cons lexeme a =>
      obtain ⟨rfl, hothers⟩ := List.cons.inj hall
      obtain ⟨t, u, rfl, ht, hu⟩ := ih hothers
      exact ⟨chars ++ t, u, by simp, .text chars hbreaks.of_append ht, hu⟩

end Laid

/-! ### Lines -/

theorem joined_append_cons (separator : List Char) (before after : List (List Char))
    (text : List Char) :
    joined separator (before ++ text :: after) =
      before.flatMap (· ++ separator) ++ text ++ after.flatMap (separator ++ ·) := by
  induction before with
  | nil =>
    induction after generalizing text with
    | nil => simp [joined]
    | cons next after ih => simpa [joined] using ih next
  | cons first before ih =>
    cases before <;> simp_all [joined]

namespace Line

/-- Lines as they are written at a level, below others. -/
def below (width : Nat) (level : Int) (lines : List Line) : List Char :=
  lines.flatMap fun line => '\n' :: line.write width level

variable (width : Nat) (level : Int)

theorem below_append (above lines : List Line) :
    below width level (above ++ lines) = below width level above ++ below width level lines := by
  simp [below]

theorem below_deepen (lines : List Line) :
    below width level (lines.map deepen) = below width (level + 1) lines := by
  unfold below
  induction lines with
  | nil => rfl
  | cons line rest ih =>
    rw [List.map_cons, List.flatMap_cons, List.flatMap_cons, ih]
    cases line with
    | blank => rfl
    | code depth content => simp [deepen, write, Int.add_assoc, Int.add_comm 1]

theorem writeAll_cons (line : Line) (rest : List Line) :
    writeAll width level (line :: rest) = line.write width level ++ below width level rest := by
  induction rest generalizing line with
  | nil => simp [writeAll, joined, below]
  | cons next rest ih =>
    have hnext := ih next
    simp only [writeAll, List.map_cons] at hnext ⊢
    rw [joined, hnext]
    · simp [below]
    · simp

theorem breaks_below (lines : List Line) : Breaks (below width level lines) := by
  cases lines with
  | nil => exact breaks_nil
  | cons line rest => exact breaks_cons (by decide) _

end Line

namespace Rendered

variable (width : Nat) (level : Int)

theorem write_eq (r : Rendered) : r.write width level = r.head ++ Line.below width level r.tail :=
  rfl

theorem write_lead (before : List Char) (r : Rendered) :
    (r.lead before).write width level = before ++ r.write width level := by
  simp [write_eq, lead]

theorem below_lines (r : Rendered) :
    Line.below width level r.lines =
      '\n' :: indent width level ++ r.write width level := by
  simp [lines, write_eq, Line.below, Line.write]

/-- What closes a text is written behind its last line, perhaps with spaces in front. -/
theorem write_close (after : List Char) (r : Rendered) :
    ∃ n, (r.close after).write width level =
      r.write width level ++ (List.replicate n ' ' ++ after) := by
  obtain ⟨head, tail⟩ := r
  rcases List.eq_nil_or_concat tail with rfl | ⟨above, line, rfl⟩
  · exact ⟨0, by simp [close, write_eq, Line.below]⟩
  · cases line with
    | blank =>
      refine ⟨(width * level).toNat, ?_⟩
      simp [close, write_eq, Line.below, Line.write, indent]
    | code depth content =>
      refine ⟨0, ?_⟩
      simp [close, write_eq, Line.below, Line.write]

end Rendered

/-! ### The lexemes of a shape -/

namespace Shape

mutual

/-- The lexemes of a shape. -/
def lexemes : Shape → List Lexeme
  | .leaf text => [.text text]
  | .list items => .mark '[' :: itemLexemes items ++ [.mark ']']
  | .object entries => .mark '\x7b' :: entryLexemes entries ++ [.mark '\x7d']

/-- The lexemes of the items of a list. -/
def itemLexemes : List Shape → List Lexeme
  | [] => []
  | [item] => item.lexemes
  | item :: rest => item.lexemes ++ .mark ',' :: itemLexemes rest

/-- The lexemes of the entries of an object. -/
def entryLexemes : List (List Char × Shape) → List Lexeme
  | [] => []
  | (key, value) :: rest => .text key :: .mark '=' :: value.lexemes ++ entryLexemes rest

end

end Shape

/-! ### A layout is laid out from the lexemes -/

/-- Wherever a text begins, it is laid out from some lexemes. -/
def Rendered.LaidFrom (width : Nat) (lexemes : List Lexeme) (r : Rendered) : Prop :=
  ∀ level, Laid lexemes (r.write width level)

/-- At every level, some lines are laid out from some lexemes. -/
def Line.LaidFrom (width : Nat) (lexemes : List Lexeme) (lines : List Line) : Prop :=
  ∀ level, Laid lexemes (Line.below width level lines)

section Layout

variable {style : Style} {width : Nat}

theorem Line.LaidFrom.append {a b : List Lexeme} {above lines : List Line}
    (ha : Line.LaidFrom width a above) (hb : Line.LaidFrom width b lines) :
    Line.LaidFrom width (a ++ b) (above ++ lines) := by
  intro level
  rw [Line.below_append]
  exact (ha level).append (hb level) (Line.breaks_below width level lines)

theorem Rendered.LaidFrom.lines {lexemes : List Lexeme} {r : Rendered}
    (h : r.LaidFrom width lexemes) : Line.LaidFrom width lexemes r.lines := by
  intro level
  rw [Rendered.below_lines]
  exact .blank (.inr rfl) ((h level).spaces _)

theorem Rendered.LaidFrom.close {lexemes : List Lexeme} {r : Rendered} {c : Char}
    (h : r.LaidFrom width lexemes) (hc : Text.isWordChar c = false) :
    (r.close [c]).LaidFrom width (lexemes ++ [.mark c]) := by
  intro level
  obtain ⟨n, hn⟩ := r.write_close width level [c]
  rw [hn]
  exact (h level).concat hc n

/-- Lines between two marks, a level further in. -/
theorem laidFrom_enclosed (opener closer : Char) {lexemes : List Lexeme} {lines : List Line}
    (h : Line.LaidFrom width lexemes lines) :
    Rendered.LaidFrom width (.mark opener :: lexemes ++ [.mark closer])
      ⟨[opener], lines.map Line.deepen ++ [.code 0 [closer]]⟩ := by
  intro level
  rw [Rendered.write_eq, Line.below_append, Line.below_deepen]
  refine .mark ((h (level + 1)).append ?_ (Line.breaks_below width level _))
  simpa [Line.below, Line.write, indent] using
    Laid.blank (.inr rfl) (Laid.spaces _ (.mark (c := closer) .nil))

/-- The items of a list that is written over several lines. -/
theorem laidFrom_itemLines {items : List Shape} {rendered : List Rendered}
    (h : List.Forall₂ (fun item r => r.LaidFrom width item.lexemes) items rendered) :
    Line.LaidFrom width (Shape.itemLexemes items) (Rendered.itemLines rendered) := by
  induction h with
  | nil => exact fun _ => .nil
  | cons hitem hrest ih =>
    cases hrest with
    | nil => exact hitem.lines
    | cons hnext hothers =>
      rw [Shape.itemLexemes, Rendered.itemLines, List.append_cons]
      · exact (hitem.close (by decide)).lines.append ih
      · simp
      · simp

/-- The items of a list that is written on one line. -/
theorem laid_joined (style : Style) {items : List Shape} (h : items.all Shape.isLeaf) :
    Laid (Shape.itemLexemes items)
      (joined [',', ' '] ((Shape.layoutItems style items).map Rendered.head)) := by
  induction items with
  | nil => exact .nil
  | cons item rest ih =>
    rw [List.all_cons, Bool.and_eq_true] at h
    obtain ⟨hitem, hrest⟩ := h
    cases item with
    | leaf text =>
      cases rest with
      | nil => exact Laid.single text
      | cons next others =>
        simpa [Shape.itemLexemes, Shape.lexemes, Shape.layoutItems, Shape.layout, joined,
          Rendered.inline] using
          Laid.text text (breaks_cons (by decide) _)
            (.mark (c := ',') (.blank (.inl rfl) (ih hrest)))
    | list items => simp [Shape.isLeaf] at hitem
    | object entries => simp [Shape.isLeaf] at hitem

/-- Each assignment of a row is written with its key padded to some width. -/
theorem Assignment.forall₂_renderAll (style : Style) (assignments : List Assignment) :
    List.Forall₂ (fun a r => ∃ n, r = Assignment.render n a) assignments
      (Assignment.renderAll style assignments) := by
  have halign : ∀ n, List.Forall₂ (fun a r => ∃ n, r = Assignment.render n a) assignments
      (Assignment.align n assignments) := by
    induction assignments with
    | nil => exact fun _ => .nil
    | cons a rest ih =>
      intro n
      rw [Assignment.align]
      split
      · exact .cons ⟨_, rfl⟩ (ih _)
      · exact .cons ⟨0, rfl⟩ (ih 0)
  unfold Assignment.renderAll
  split
  · exact halign 0
  · exact List.forall₂_map_right_iff.mpr (List.forall₂_same.mpr fun a _ => ⟨0, rfl⟩)

theorem Assignment.laidFrom_render {a : Assignment} {lexemes : List Lexeme} (n : Nat)
    (h : a.value.LaidFrom width lexemes) :
    (a.render n).LaidFrom width (.text a.key :: .mark '=' :: lexemes) := by
  intro level
  have hequals := Laid.blank (.inl rfl) (.mark (c := '=') (.blank (.inl rfl) (h level)))
  have hspaces := hequals.spaces (n - a.key.length)
  have hbreaks : Breaks (List.replicate (n - a.key.length) ' ' ++
      ' ' :: '=' :: ' ' :: a.value.write width level) :=
    (breaks_replicate _).append (breaks_cons (by decide) _)
  simpa [Assignment.render, Assignment.pad, Rendered.write_lead] using
    Laid.text a.key hbreaks hspaces

/-- The lines of some assignments. -/
theorem laidFrom_assignments {entries : List (List Char × Shape)} {assignments : List Assignment}
    (h : List.Forall₂ (fun entry a => a.key = entry.1 ∧ a.value.LaidFrom width entry.2.lexemes)
      entries assignments) :
    Line.LaidFrom width (Shape.entryLexemes entries)
      ((Assignment.renderAll style assignments).flatMap Rendered.lines) := by
  have hrendered := Assignment.forall₂_renderAll style assignments
  generalize Assignment.renderAll style assignments = rendered at hrendered ⊢
  induction h generalizing rendered with
  | nil =>
    cases hrendered
    exact fun _ => .nil
  | @cons entry a _ _ hentry _ ih =>
    obtain _ | ⟨⟨n, rfl⟩, hothers⟩ := hrendered
    obtain ⟨key, value⟩ := entry
    obtain ⟨rfl, hvalue⟩ := hentry
    rw [List.flatMap_cons, Shape.entryLexemes]
    exact (Assignment.laidFrom_render n hvalue).lines.append (ih _ hothers)

namespace Shape

mutual

/-- **Layouts keep the lexemes.** Every layout of a shape is laid out from its lexemes. -/
theorem laidFrom_layout (shape : Shape) :
    (shape.layout style).LaidFrom width shape.lexemes := by
  match shape with
  | .leaf text =>
    intro level
    simpa [layout, lexemes, Rendered.inline, Rendered.write] using Laid.single text
  | .list items =>
    rw [layout, lexemes, Rendered.ofItems]
    split
    · rename_i hempty
      cases items with
      | nil => exact fun _ => .mark (.mark .nil)
      | cons item rest => simp [layoutItems] at hempty
    · split
      · rename_i _ hline
        intro level
        have hitems := laid_joined style (Bool.and_eq_true_iff.mp hline).1
        simpa [Rendered.write, Rendered.inline] using
          Laid.mark (c := '[') (hitems.concat (c := ']') (by decide) 0)
      · exact laidFrom_enclosed '[' ']' (laidFrom_itemLines (laidFrom_layoutItems items))
  | .object entries =>
    rw [layout, lexemes, Rendered.ofAssignments]
    split
    · rename_i hempty
      cases entries with
      | nil => exact fun _ => .mark (.mark .nil)
      | cons entry rest => simp [layoutEntries] at hempty
    · exact laidFrom_enclosed '\x7b' '\x7d' (laidFrom_assignments (laidFrom_layoutEntries entries))

theorem laidFrom_layoutItems (items : List Shape) :
    List.Forall₂ (fun item r => r.LaidFrom width item.lexemes) items (layoutItems style items) := by
  match items with
  | [] => exact .nil
  | item :: rest => exact .cons (laidFrom_layout item) (laidFrom_layoutItems rest)

theorem laidFrom_layoutEntries (entries : List (List Char × Shape)) :
    List.Forall₂ (fun entry a => a.key = entry.1 ∧ a.value.LaidFrom width entry.2.lexemes)
      entries (layoutEntries style entries) := by
  match entries with
  | [] => exact .nil
  | (key, value) :: rest =>
    exact .cons ⟨rfl, laidFrom_layout value⟩ (laidFrom_layoutEntries rest)

end

end Shape

end Layout

end Stanza
