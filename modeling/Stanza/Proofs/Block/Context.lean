import Stanza.Proofs.Block.Forest
import Stanza.Proofs.Fault.Alike
import Stanza.Proofs.Layout.Outline

/-!
Editing one block of a forest.

A `Block.Context` is a forest with a place left open for a block, at any depth. What a document
says around that place does not depend on the block that is put there: `Document.compile_fill` gives
the two texts, before and after, between which every block that can be written stands as it is
written by itself at that depth.

That a forest compiles is a matter of each of its blocks (`Block.compiles_block_iff`), so it does
when the block put there does and the rest of the forest does. The text is framed, `Block.Frames`,
one step of compiling after the other.
-/

namespace Stanza

namespace Block

/-! ### Contexts -/

/-- A forest with a place left open: between the blocks of a row, or among the children of one of
them. -/
inductive Context where
  | here (before after : List Value)
  | inside (before : List Value) (blockPath attributes : Value) (inner : Context)
      (after : List Value)

namespace Context

/-- The forest with a block in the open place. -/
def fill (n : Value) : Context → List Value
  | .here before after => before ++ n :: after
  | .inside before blockPath attributes inner after =>
      before ++ .block blockPath attributes (.list (inner.fill n)) :: after

/-- The forest without the open place. -/
def rest : Context → List Value
  | .here before after => before ++ after
  | .inside before blockPath attributes inner after =>
      before ++ .block blockPath attributes (.list inner.rest) :: after

/-- How many blocks the open place is inside of. -/
def depth : Context → Nat
  | .here .. => 0
  | .inside _ _ _ inner _ => inner.depth + 1

/-- Every block of a forest stands in a context, at the depth of the chain that leads to it. -/
theorem exists_of_chain {nodes : List Value} {path : Path} {node : Value}
    (h : Chain nodes path node) :
    ∃ context : Context, context.fill node = nodes ∧ path.length = context.depth + 1 := by
  induction h with
  | top hmem =>
    obtain ⟨before, after, rfl⟩ := List.append_of_mem hmem
    exact ⟨.here before after, rfl, rfl⟩
  | inside hmem _ ih =>
    obtain ⟨inner, rfl, hdepth⟩ := ih
    obtain ⟨before, after, rfl⟩ := List.append_of_mem hmem
    exact ⟨.inside before _ _ inner after, rfl, by simp [depth, hdepth]⟩

end Context

/-! ### When a forest compiles -/

section Compiles

variable {style : Style}

/-- The lines of a block with a header, those of its attributes and those of its children. -/
def enclosed (header : List Char) (body nested : List Line) : List Line :=
  .code 0 (header ++ [' ', '\x7b']) :: ((body ++ nested).map Line.deepen ++ [.code 0 ['\x7d']])

/-- All that has to succeed for a block to have lines, and what they are then. -/
theorem lines_block_eq_ok_iff {path : Path} {blockPath attributes children : Value}
    {ls : List Line} :
    lines style path (.block blockPath attributes children) = .ok ls ↔
      ∃ found address entries rs nested,
        header path blockPath = .ok (found, address) ∧
        attributeEntries (path ++ [.text address]) attributes = .ok entries ∧
        areChildren children = true ∧
        Attributes.ofEntries style (path ++ [.text address]) entries = .ok rs ∧
        childLines style (path ++ [.text address]) (!(rs.flatMap Rendered.lines).isEmpty) children =
          .ok nested ∧
        ls = enclosed found (rs.flatMap Rendered.lines) nested := by
  rw [lines]
  constructor
  · intro h
    obtain ⟨⟨found, address⟩, hheader, h⟩ := bind_eq_ok_iff.mp h
    obtain ⟨entries, hentries, h⟩ := bind_eq_ok_iff.mp h
    obtain ⟨_, hcheck, h⟩ := bind_eq_ok_iff.mp h
    obtain ⟨rs, hrs, h⟩ := bind_eq_ok_iff.mp h
    obtain ⟨nested, hnested, h⟩ := bind_eq_ok_iff.mp h
    have hrow : areChildren children = true := by
      unfold checkChildren at hcheck
      split at hcheck
      · assumption
      · exact absurd hcheck fail_ne_ok
    exact ⟨found, address, entries, rs, nested, hheader, hentries, hrow, hrs, hnested,
      (Except.ok.inj h).symm⟩
  · rintro ⟨found, address, entries, rs, nested, hheader, hentries, hrow, hrs, hnested, rfl⟩
    exact bind_eq_ok_iff.mpr ⟨_, hheader, bind_eq_ok_iff.mpr ⟨entries, hentries,
      bind_eq_ok_iff.mpr ⟨(), if_pos hrow, bind_eq_ok_iff.mpr ⟨rs, hrs,
        bind_eq_ok_iff.mpr ⟨nested, hnested, rfl⟩⟩⟩⟩⟩

/-- A block has lines. -/
def Compiles (style : Style) (node : Value) : Prop := ∃ ls, lines style [] node = .ok ls

theorem exists_compile_block_iff {format : Format} {node : Value} (level : Int) :
    (∃ text, compile format level node = .ok text) ↔ Compiles format.toStyle node := by
  constructor
  · rintro ⟨text, h⟩
    obtain ⟨ls, hls, -⟩ := bind_eq_ok_iff.mp h
    exact ⟨ls, hls⟩
  · rintro ⟨ls, hls⟩
    exact ⟨_, bind_eq_ok_iff.mpr ⟨ls, hls, rfl⟩⟩

/-- Where a block has lines, it has the same lines elsewhere. -/
theorem lines_eq_ok_iff {path : Path} {node : Value} {ls : List Line} :
    lines style path node = .ok ls ↔ lines style [] node = .ok ls := by
  have hsame : ∀ p q : Path, lines style p node = .ok ls → lines style q node = .ok ls := by
    intro p q h
    have halike := alike_lines rfl (fun _ => rfl : Tied True style style) (.refl p q) node
    obtain ⟨others, hothers, hls⟩ := halike.exists_ok h
    rw [hothers, hls trivial]
  exact ⟨hsame _ _, hsame _ _⟩

theorem exists_itemLines_iff {path : Path} {follows : Bool} {nodes : List Value} :
    (∃ ls, itemLines style path follows nodes = .ok ls) ↔ ∀ node ∈ nodes, Compiles style node := by
  induction nodes generalizing follows with
  | nil => simp [itemLines]
  | cons node rest ih =>
    rw [List.forall_mem_cons, ← ih]
    constructor
    · rintro ⟨ls, h⟩
      obtain ⟨first, hfirst, h⟩ := bind_eq_ok_iff.mp h
      obtain ⟨more, hmore, -⟩ := bind_eq_ok_iff.mp h
      exact ⟨⟨first, lines_eq_ok_iff.mp hfirst⟩, more, hmore⟩
    · rintro ⟨⟨first, hfirst⟩, more, hmore⟩
      exact ⟨_, bind_eq_ok_iff.mpr ⟨first, lines_eq_ok_iff.mpr hfirst,
        bind_eq_ok_iff.mpr ⟨more, hmore, rfl⟩⟩⟩

/-- A block compiles when its path and its attributes do and each of its children does. -/
theorem compiles_block_iff_exists {blockPath attributes : Value} {children : List Value} :
    Compiles style (.block blockPath attributes (.list children)) ↔
      (∃ header address entries rs, Block.header [] blockPath = .ok (header, address) ∧
        attributeEntries [.text address] attributes = .ok entries ∧
        Attributes.ofEntries style [.text address] entries = .ok rs) ∧
      ∀ child ∈ children, Compiles style child := by
  constructor
  · rintro ⟨ls, h⟩
    obtain ⟨header, address, entries, rs, nested, hheader, hentries, -, hrs, hnested, -⟩ :=
      lines_block_eq_ok_iff.mp h
    exact ⟨⟨header, address, entries, rs, hheader, hentries, hrs⟩,
      exists_itemLines_iff.mp ⟨nested, hnested⟩⟩
  · rintro ⟨⟨header, address, entries, rs, hheader, hentries, hrs⟩, hchildren⟩
    obtain ⟨nested, hnested⟩ := exists_itemLines_iff.mpr hchildren
    exact ⟨_, lines_block_eq_ok_iff.mpr
      ⟨header, address, entries, rs, nested, hheader, hentries, rfl, hrs, hnested, rfl⟩⟩

/-- A block compiles when it does without its children and each of these does. -/
theorem compiles_block_iff {blockPath attributes : Value} {children : List Value} :
    Compiles style (.block blockPath attributes (.list children)) ↔
      Compiles style (.block blockPath attributes (.list [])) ∧
        ∀ child ∈ children, Compiles style child := by
  rw [compiles_block_iff_exists, @compiles_block_iff_exists _ _ _ []]
  simp only [List.not_mem_nil, IsEmpty.forall_iff, implies_true, and_true]

/-- A forest compiles when the block in the open place does and the rest of the forest does. -/
theorem compiles_fill_iff {n : Value} (context : Context) :
    (∀ node ∈ context.fill n, Compiles style node) ↔
      (∀ node ∈ context.rest, Compiles style node) ∧ Compiles style n := by
  induction context with
  | here before after =>
    simp only [Context.fill, Context.rest, List.forall_mem_append, List.forall_mem_cons]
    tauto
  | inside before blockPath attributes inner after ih =>
    simp only [Context.fill, Context.rest, List.forall_mem_append, List.forall_mem_cons]
    rw [compiles_block_iff, @compiles_block_iff _ _ _ inner.rest, ih]
    tauto

end Compiles

/-! ### What is written around the open place -/

section Frames

variable {style : Style} {width : Nat} {level : Int} {α β γ : Type} {view : α → List Char}

/-- Whatever block is put in the open place, what a run makes of it is the text of the block by
itself between the same two texts. -/
def Frames (style : Style) (width : Nat) (level : Int) (view : α → List Char)
    (run : Value → Except Fault α) : Prop :=
  ∃ front back, ∀ n ls a, lines style [] n = .ok ls → run n = .ok a →
    view a = front ++ Line.writeAll width level ls ++ back

namespace Frames

theorem hole (path : Path) :
    Frames style width level (Line.writeAll width level) (lines style path) := by
  refine ⟨[], [], fun n ls a hls ha => ?_⟩
  rw [lines_eq_ok_iff, hls] at ha
  simp [Except.ok.inj ha]

/-- A step before the open place. -/
theorem before {run : β → Value → Except Fault α} (x : Except Fault β)
    (h : ∀ b, Frames style width level view (run b)) :
    Frames style width level view fun n => x >>= fun b => run b n := by
  cases x with
  | error fault => exact ⟨[], [], fun n ls a _ ha => by simp [bind, Except.bind] at ha⟩
  | ok b => exact h b

/-- A step behind the open place, and text put around what is there. -/
theorem behind {run : Value → Except Fault α} {wider : γ → List Char}
    (h : Frames style width level view run) (y : Except Fault β) (f : α → β → γ)
    (hview : ∀ b, ∃ front back, ∀ a, wider (f a b) = front ++ view a ++ back) :
    Frames style width level wider fun n => run n >>= fun a => y >>= fun b => pure (f a b) := by
  cases y with
  | error fault =>
    refine ⟨[], [], fun n ls a _ ha => ?_⟩
    obtain ⟨_, -, ha⟩ := bind_eq_ok_iff.mp ha
    simp [bind, Except.bind] at ha
  | ok b =>
    obtain ⟨front, back, hframe⟩ := h
    obtain ⟨above, below, hwider⟩ := hview b
    refine ⟨above ++ front, back ++ below, fun n ls c hls hc => ?_⟩
    obtain ⟨a, ha, hc⟩ := bind_eq_ok_iff.mp hc
    obtain rfl : f a b = c := Except.ok.inj hc
    simp [hwider, hframe n ls a hls ha]

/-- Text put around what is there. -/
theorem around {run : Value → Except Fault α} {wider : γ → List Char}
    (h : Frames style width level view run) (f : α → γ)
    (hview : ∃ front back, ∀ a, wider (f a) = front ++ view a ++ back) :
    Frames style width level wider fun n => run n >>= fun a => pure (f a) :=
  h.behind (.ok ()) (fun a _ => f a) fun _ => hview

end Frames

theorem lines_ne_nil {path : Path} {node : Value} {ls : List Line}
    (h : lines style path node = .ok ls) : ls ≠ [] := by
  obtain ⟨_, _, _, rfl⟩ := exists_eq_block_of_lines h
  obtain ⟨_, _, _, _, -, -, -, -, -, -, -, rfl⟩ := lines_block_eq_ok h
  simp [Rendered.lines]

variable {outer : Int}

/-- The lines of a block below others. -/
theorem Frames.below {path : Path} {node : Value → Value}
    (h : Frames style width level (Line.writeAll width outer) fun n => lines style path (node n)) :
    Frames style width level (Line.below width outer) fun n => lines style path (node n) := by
  obtain ⟨front, back, hframe⟩ := h
  refine ⟨'\n' :: front, back, fun n ls a hls ha => ?_⟩
  match a with
  | [] => exact absurd rfl (lines_ne_nil ha)
  | line :: more =>
    have htext := hframe n ls _ hls ha
    rw [Line.writeAll_cons] at htext
    simpa [Line.below] using htext

theorem itemLines_append_cons {path : Path} {follows : Bool} (before after : List Value)
    (node : Value) :
    itemLines style path follows (before ++ node :: after) =
      itemLines style path follows before >>= fun above => lines style path node >>= fun ls =>
        itemLines style path true after >>= fun more =>
          pure (above ++ separator style (follows || !before.isEmpty) ++ ls ++ more) := by
  induction before generalizing follows with
  | nil => simp [itemLines, bind, Except.bind]
  | cons first before ih => simp [itemLines, ih, bind_assoc]

/-- A block in a row of blocks. -/
theorem Frames.row {node : Value → Value}
    (h : ∀ path, Frames style width level (Line.writeAll width outer) fun n =>
      lines style path (node n)) (before after : List Value) (path : Path) (follows : Bool) :
    Frames style width level (Line.below width outer) fun n =>
      itemLines style path follows (before ++ node n :: after) := by
  simp only [itemLines_append_cons]
  refine .before _ fun above => (h path).below.behind _ _ fun more => ?_
  exact ⟨Line.below width outer (above ++ separator style (follows || !before.isEmpty)),
    Line.below width outer more, fun ls => by simp only [Line.below_append]⟩

/-- Children in their block. -/
theorem Frames.block {children : Value → List Value} (blockPath attributes : Value)
    (h : ∀ path follows, Frames style width level (Line.below width (outer + 1)) fun n =>
      itemLines style path follows (children n)) (path : Path) :
    Frames style width level (Line.writeAll width outer) fun n =>
      lines style path (.block blockPath attributes (.list (children n))) := by
  simp only [lines]
  refine .before _ fun ⟨header, address⟩ => .before _ fun entries => .before (.ok ()) fun _ =>
    .before _ fun rs => (h _ _).around (enclosed header (rs.flatMap Rendered.lines)) ?_
  refine ⟨(Line.code 0 (header ++ [' ', '\x7b'])).write width outer ++
      Line.below width (outer + 1) (rs.flatMap Rendered.lines),
    Line.below width outer [.code 0 ['\x7d']], fun nested => ?_⟩
  simp only [enclosed, Line.writeAll_cons, Line.below_append, Line.below_deepen, List.append_assoc]

/-- **The frame of the open place.** -/
theorem frames_fill (context : Context) (level : Int) (path : Path) (follows : Bool) :
    Frames style width (level + context.depth) (Line.below width level) fun n =>
      itemLines style path follows (context.fill n) := by
  induction context generalizing level path follows with
  | here before after =>
    rw [Context.depth, Int.natCast_zero, Int.add_zero]
    exact Frames.row Frames.hole before after path follows
  | inside before blockPath attributes inner after ih =>
    have hlevel : level + (Context.inside before blockPath attributes inner after).depth =
        level + 1 + inner.depth := by simp only [Context.depth]; omega
    rw [hlevel]
    exact Frames.row (Frames.block blockPath attributes (ih (level + 1))) before after path follows

end Frames

end Block

/-! ### Whole documents -/

namespace Document

open Block

variable {format : Format}

theorem blockTexts_append_cons (before after : List Value) (node : Value) :
    blockTexts format (before ++ node :: after) =
      blockTexts format before >>= fun above => Block.compile format 0 node >>= fun text =>
        blockTexts format after >>= fun more => pure (above ++ text :: more) := by
  induction before with
  | nil => simp [blockTexts, bind, Except.bind]
  | cons first before ih => simp [blockTexts, ih, bind_assoc]

theorem exists_blockTexts_iff {nodes : List Value} :
    (∃ texts, blockTexts format nodes = .ok texts) ↔
      ∀ node ∈ nodes, Compiles format.toStyle node := by
  induction nodes with
  | nil => simp [blockTexts]
  | cons node rest ih =>
    rw [List.forall_mem_cons, ← ih, ← exists_compile_block_iff 0]
    constructor
    · rintro ⟨texts, h⟩
      obtain ⟨text, htext, h⟩ := bind_eq_ok_iff.mp h
      obtain ⟨more, hmore, -⟩ := bind_eq_ok_iff.mp h
      exact ⟨⟨text, htext⟩, more, hmore⟩
    · rintro ⟨⟨text, htext⟩, more, hmore⟩
      exact ⟨text :: more, bind_eq_ok_iff.mpr ⟨text, htext,
        bind_eq_ok_iff.mpr ⟨more, hmore, rfl⟩⟩⟩

theorem exists_compile_iff {nodes : List Value} :
    (∃ text, compile format nodes = .ok text) ↔
      ∀ node ∈ nodes, Compiles format.toStyle node := by
  rw [← exists_blockTexts_iff]
  constructor
  · rintro ⟨text, h⟩
    obtain ⟨texts, h, -⟩ := bind_eq_ok_iff.mp h
    exact ⟨texts, h⟩
  · rintro ⟨texts, h⟩
    exact ⟨assemble texts, bind_eq_ok_iff.mpr ⟨texts, h, rfl⟩⟩

/-- A top-level block in a document. -/
theorem frames_compile_append_cons {level : Int} {node : Value → Value}
    (h : Frames format.toStyle format.indentWidth level (Line.writeAll format.indentWidth 0)
      fun n => lines format.toStyle [] (node n)) (before after : List Value) :
    Frames format.toStyle format.indentWidth level id fun n =>
      compile format (before ++ node n :: after) := by
  simp only [compile, blockTexts_append_cons, Block.compile, bind_assoc, pure_bind]
  refine .before _ fun above => h.behind _ _ fun more => ?_
  refine ⟨above.flatMap (· ++ ['\n', '\n']), more.flatMap (['\n', '\n'] ++ ·) ++ ['\n'],
    fun ls => ?_⟩
  simp [assemble, joined_append_cons]

/-- **The frame of the open place of a document.** -/
theorem frames_compile (format : Format) (context : Context) :
    Frames format.toStyle format.indentWidth context.depth id fun n =>
      compile format (context.fill n) := by
  cases context with
  | here before after => exact frames_compile_append_cons (.hole []) before after
  | inside before blockPath attributes inner after =>
    have hlevel : ((Context.inside before blockPath attributes inner after).depth : Int) =
        0 + 1 + inner.depth := by simp only [Context.depth]; omega
    rw [hlevel]
    exact frames_compile_append_cons
      (.block blockPath attributes (frames_fill inner (0 + 1)) []) before after

/-- **Editing a block changes no other text.** For every place in a forest there are two texts
between which every block that is put there is written as it is by itself at that depth; and with
it the forest compiles exactly when the rest of the forest does and the block does. -/
theorem compile_fill (format : Format) (context : Context) :
    ∃ front back, ∀ n text, compile format (context.fill n) = .ok text ↔
      (∃ others, compile format context.rest = .ok others) ∧
        ∃ own, Block.compile format context.depth n = .ok own ∧ text = front ++ own ++ back := by
  obtain ⟨front, back, hframe⟩ := frames_compile format context
  refine ⟨front, back, fun n text => ?_⟩
  have hown : (∃ own, Block.compile format context.depth n = .ok own) ↔
      Compiles format.toStyle n := exists_compile_block_iff context.depth
  have htext : ∀ whole own, compile format (context.fill n) = .ok whole →
      Block.compile format context.depth n = .ok own → whole = front ++ own ++ back := by
    intro whole own hwhole hcompile
    obtain ⟨ls, hls, hwritten⟩ := bind_eq_ok_iff.mp hcompile
    rw [← Except.ok.inj hwritten]
    exact hframe n ls whole hls hwhole
  constructor
  · intro h
    obtain ⟨hrest, hn⟩ := (compiles_fill_iff context).mp (exists_compile_iff.mp ⟨text, h⟩)
    obtain ⟨own, hcompile⟩ := hown.mpr hn
    exact ⟨exists_compile_iff.mpr hrest, own, hcompile, htext text own h hcompile⟩
  · rintro ⟨hrest, own, hcompile, rfl⟩
    obtain ⟨whole, hwhole⟩ := exists_compile_iff.mpr
      ((compiles_fill_iff context).mpr ⟨exists_compile_iff.mp hrest, hown.mp ⟨own, hcompile⟩⟩)
    rw [hwhole, htext whole own hwhole hcompile]

end Document

end Stanza
