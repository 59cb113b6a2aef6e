import Stanza.Cli.Table
import Stanza.Proofs.Block.Heading
import Stanza.Proofs.Cli.Laws
import Stanza.Proofs.Fault.First
import Stanza.Proofs.Number.Written

/-!
What the console shows of a document and of its blocks.

The table of the blocks of a document is made of marked-up texts. For blocks that compile it has a
row each, and of the cells only those with labels can hold a tag (`Cli.blockRows_of_compile`), so a
console shows the table of blocks whose labels have no bracket (`Cli.blockTable_of_plain`). The
console of the program shows it exactly when the labels of every block are a marked-up text
(`Cli.isShowable_iff`), and prints a document as it is exactly when there is no control sequence in
it (`Cli.plain_eq_self_iff`).
-/

namespace Stanza.Cli

/-! ### Control sequences -/

/-- What comes after the control sequence that a text starts with, if it starts with one. -/
def controlAt? : List Char → Option (List Char)
  | '\x1b' :: '[' :: sequence => afterControl? sequence
  | _ => none

/-- Somewhere in a text there is a control sequence. -/
def HasControl (text : List Char) : Prop :=
  ∃ before rest, text = before ++ rest ∧ (controlAt? rest).isSome

theorem not_hasControl_nil : ¬HasControl [] := by
  rintro ⟨before, rest, htext, hcontrol⟩
  obtain ⟨rfl, rfl⟩ := List.append_eq_nil_iff.mp htext.symm
  cases hcontrol

theorem hasControl_cons {c : Char} {rest : List Char} :
    HasControl (c :: rest) ↔ (controlAt? (c :: rest)).isSome ∨ HasControl rest := by
  constructor
  · rintro ⟨before, tail, htext, hcontrol⟩
    rcases List.cons_eq_append_iff.mp htext with ⟨rfl, rfl⟩ | ⟨before', rfl, rfl⟩
    · exact .inl hcontrol
    · exact .inr ⟨before', tail, rfl, hcontrol⟩
  · rintro (hcontrol | ⟨before, tail, rfl, hcontrol⟩)
    · exact ⟨[], c :: rest, rfl, hcontrol⟩
    · exact ⟨c :: before, tail, rfl, hcontrol⟩

theorem plain_go_cons (n : Nat) (c : Char) (rest : List Char) :
    plain.go (n + 1) (c :: rest) =
      match controlAt? (c :: rest) with
      | some after => plain.go n after
      | none => c :: plain.go n rest := by
  rw [plain.go]
  by_cases hescape : c = '\x1b'
  · subst hescape
    rw [if_pos rfl]
    cases rest with
    | nil => rfl
    | cons d sequence =>
      by_cases hbracket : d = '['
      · subst hbracket
        rfl
      · simp [controlAt?, hbracket]
  · simp [controlAt?, hescape]

/-- A control sequence is not empty. -/
theorem length_lt_of_controlAt? {text after : List Char} (h : controlAt? text = some after) :
    after.length < text.length := by
  unfold controlAt? at h
  split at h
  · rename_i sequence
    unfold afterControl? at h
    dsimp only at h
    split at h
    · rename_i c rest hrest
      split at h
      · obtain rfl := Option.some.inj h
        have hdropped := congrArg List.length hrest
        have hinner := (List.dropWhile_suffix (fun c => decide (' ' ≤ c ∧ c ≤ '/'))
          (l := sequence.dropWhile fun c => decide ('0' ≤ c ∧ c ≤ '?'))).length_le
        have houter := (List.dropWhile_suffix (fun c => decide ('0' ≤ c ∧ c ≤ '?'))
          (l := sequence)).length_le
        simp only [List.length_cons] at hdropped ⊢
        omega
      · cases h
    · cases h
  · cases h

theorem length_plain_go_le (n : Nat) (text : List Char) :
    (plain.go n text).length ≤ text.length := by
  induction n generalizing text with
  | zero => exact le_rfl
  | succ n ih =>
    cases text with
    | nil => exact le_rfl
    | cons c rest =>
      rw [plain_go_cons]
      split
      · rename_i after hafter
        exact (ih after).trans (length_lt_of_controlAt? hafter).le
      · exact Nat.succ_le_succ (ih rest)

theorem plain_go_eq_self_iff {n : Nat} {text : List Char} (h : text.length ≤ n) :
    plain.go n text = text ↔ ¬HasControl text := by
  induction n generalizing text with
  | zero =>
    obtain rfl := List.length_eq_zero_iff.mp (Nat.le_zero.mp h)
    exact iff_of_true rfl not_hasControl_nil
  | succ n ih =>
    cases text with
    | nil => exact iff_of_true rfl not_hasControl_nil
    | cons c rest =>
      have hrest : rest.length ≤ n := Nat.le_of_succ_le_succ h
      rw [plain_go_cons, hasControl_cons, not_or, ← ih hrest]
      cases hcontrol : controlAt? (c :: rest) with
      | none => simp
      | some after =>
        constructor
        · intro heq
          have hle : (plain.go n after).length ≤ after.length := length_plain_go_le n after
          have hlt : after.length < (c :: rest).length := length_lt_of_controlAt? hcontrol
          have hlength := congrArg List.length heq
          dsimp only at hlength
          omega
        · intro hnone
          simp at hnone

/-- **A text is printed as it is** exactly when no control sequence is in it. -/
theorem plain_eq_self_iff (text : List Char) : plain text = text ↔ ¬HasControl text :=
  plain_go_eq_self_iff le_rfl

/-! ### Rows -/

/-- The labels of a block as its row has them. -/
def labelCell : Value → String
  | .block (.list parts) _ _ => " ".intercalate (parts.tail.map Value.display)
  | _ => ""

theorem bracket_not_mem_toString (n : Nat) : '[' ∉ (toString n).toList := by
  intro hmem
  rw [Nat.toString_eq_repr, Nat.toList_repr] at hmem
  exact absurd (isDigit_of_mem_toDigits hmem) (by decide)

theorem bracket_not_mem_identifier {keyword : List Char} (h : Text.isIdentifier keyword) :
    '[' ∉ keyword := fun hmem =>
  absurd ((Text.isIdentifier_iff.mp h).2 _ hmem) (by decide)

/-- A block that has lines has a row, which starts with an identifier and has the labels next. -/
theorem blockRow_of_lines {style : Style} {node : Value} {ls : List Line}
    (htree : Block.IsTree Definition.IsBuilt node) (hlines : Block.lines style [] node = .ok ls) :
    ∃ keyword attributes nested, Text.isIdentifier (String.toList keyword) ∧
      blockRow node = .ok [keyword, labelCell node, toString (attributes : Nat),
        toString (nested : Nat)] := by
  obtain ⟨visits, hwalk, -, -⟩ :=
    @Block.fault?_lines style Definition.IsBuilt [] node (fun _ _ hbuilt => hbuilt.1) htree
  obtain ⟨parts, attributes, children, rfl, -, -⟩ := htree.exists_eq_block
  obtain ⟨keyword, labels, -, -, hitems, -, -, hkeyword, -⟩ := Block.lines_block_eq_ok hlines
  obtain rfl : parts = .text keyword :: labels.map .text := Option.some.inj hitems
  obtain ⟨address, haddress, hrest⟩ := bind_eq_ok_iff.mp hwalk
  obtain ⟨nested, hnested, hrest⟩ := bind_eq_ok_iff.mp hrest
  obtain rfl := Except.ok.inj hrest
  let node : Value :=
    .block (.list (.text keyword :: labels.map .text)) attributes (.list children)
  refine ⟨keyword, attributeCount node, nested.length, hkeyword, ?_⟩
  rw [blockRow, hwalk]
  rfl

/-- A row for a block, in which only the cell with the labels can hold a bracket. -/
def IsRowOf (node : Value) (row : List String) : Prop :=
  ∃ keyword attributes nested, row = [keyword, labelCell node, attributes, nested] ∧
    ∀ cell ∈ [keyword, attributes, nested], '[' ∉ String.toList cell

/-- **Rows of blocks.** Blocks that compile have a row each. -/
theorem blockRows_of_compile {format : Format} {nodes : List Value} {text : List Char}
    (htrees : Block.AreTrees Definition.IsBuilt nodes)
    (hcompile : Document.compile format nodes = .ok text) :
    ∃ rows, nodes.mapM blockRow = .ok rows ∧ List.Forall₂ IsRowOf nodes rows := by
  obtain ⟨texts, htexts, -⟩ := bind_eq_ok_iff.mp hcompile
  clear hcompile
  induction nodes generalizing texts with
  | nil => exact ⟨[], rfl, .nil⟩
  | cons node rest ih =>
    obtain ⟨first, hfirst, htexts⟩ := bind_eq_ok_iff.mp htexts
    obtain ⟨others, hothers, -⟩ := bind_eq_ok_iff.mp htexts
    obtain ⟨ls, hlines, -⟩ := bind_eq_ok_iff.mp hfirst
    obtain ⟨keyword, attributes, nested, hkeyword, hrow⟩ := blockRow_of_lines htrees.1 hlines
    obtain ⟨rows, hrows, hmatch⟩ := ih htrees.2 others hothers
    refine ⟨[keyword, labelCell node, toString attributes, toString nested] :: rows, ?_,
      .cons ⟨keyword, _, _, rfl, ?_⟩ hmatch⟩
    · rw [List.mapM_cons, hrow, hrows]
      rfl
    · simp only [List.forall_mem_cons]
      exact ⟨bracket_not_mem_identifier hkeyword, bracket_not_mem_toString _,
        bracket_not_mem_toString _, nofun⟩

/-- A console shows the table of blocks whose labels have no bracket. -/
theorem blockTable_of_plain {console : Console} (hconsole : console.IsLawful) {nodes : List Value}
    {rows : List (List String)} (hrows : List.Forall₂ IsRowOf nodes rows)
    (hlabels : ∀ node ∈ nodes, '[' ∉ (labelCell node).toList) :
    ∃ shown, console.blockTable rows = some shown := by
  refine hconsole.table _ _ _ ?_
  induction hrows with
  | nil => exact nofun
  | @cons node row rest rows hrow _ ih =>
    obtain ⟨keyword, attributes, nested, rfl, hplain⟩ := hrow
    obtain ⟨hfirst, hrest⟩ := List.forall_mem_cons.mp hlabels
    simp only [List.forall_mem_cons] at hplain
    refine List.forall_mem_cons.mpr ⟨?_, ih hrest⟩
    simp only [List.forall_mem_cons]
    exact ⟨hplain.1, hfirst, hplain.2.1, hplain.2.2.1, nofun⟩

/-- **Which tables are shown** on the console of the program: those of blocks whose labels are a
marked-up text, each by itself. -/
theorem isShowable_iff {nodes : List Value} {rows : List (List String)}
    (hrows : List.Forall₂ IsRowOf nodes rows) :
    isShowable rows ↔ ∀ node ∈ nodes, Markup.isSound (labelCell node).toList := by
  induction hrows with
  | nil => simp [isShowable]
  | @cons node row rest rows hrow _ ih =>
    obtain ⟨keyword, attributes, nested, rfl, hplain⟩ := hrow
    have hsound : ∀ cell ∈ [keyword, attributes, nested], Markup.isSound (String.toList cell) :=
      fun cell hcell => Markup.isSound_of_not_mem (hplain cell hcell)
    simp only [List.forall_mem_cons] at hsound
    rw [isShowable, List.all_cons, Bool.and_eq_true, List.forall_mem_cons, ← ih]
    simp only [List.all_cons, List.all_nil, hsound.1, hsound.2.1, hsound.2.2.1, Bool.true_and,
      Bool.and_true]
    rfl

/-- The console of the program keeps the laws of a console. -/
theorem Console.standard_isLawful : Console.standard.IsLawful where
  echo text htext := by
    refine (plain_eq_self_iff text).mpr ?_
    rintro ⟨before, rest, rfl, hcontrol⟩
    refine htext (List.mem_append_right _ ?_)
    unfold controlAt? at hcontrol
    split at hcontrol
    · exact List.mem_cons_self
    · cases hcontrol
  table title columns rows hplain := by
    refine ⟨drawTable title columns rows, if_pos ?_⟩
    simp only [isShowable, List.all_eq_true]
    exact fun row hrow cell hcell => Markup.isSound_of_not_mem (hplain row hrow cell hcell)
  report _ _ _ := ⟨_, rfl⟩
  path _ := ⟨_, rfl⟩
  wrote _ := ⟨_, rfl⟩
  count _ := ⟨_, rfl⟩

end Stanza.Cli
