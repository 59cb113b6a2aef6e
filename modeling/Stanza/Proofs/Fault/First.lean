import Stanza.Block.Compile
import Stanza.Proofs.Block.Forest

/-!
Which fault is reported.

A walk over a forest visits every block before its children and in order. A document fails exactly
when some visited block fails by itself, which is to say without its children and below the path of
its parent; and the fault reported is that of the first such block in the order of the walk
(`Document.compile_eq_error_iff`).

The step is `Block.fault?_block`: of a block with children, the fault of the block by itself comes
before those of the children. `Block.fault?_lines` follows by induction over the forest.
-/

namespace Stanza

/-- The fault that a run ends with, if it fails. -/
def fault? {α : Type} : Except Fault α → Option Fault
  | .ok _ => none
  | .error fault => some fault

section Runs

variable {α β γ : Type} {x : Except Fault α}

theorem fault?_eq_some {fault : Fault} : fault? x = some fault ↔ x = .error fault := by
  cases x <;> simp [fault?]

theorem fault?_eq_none : fault? x = none ↔ ∃ a, x = .ok a := by
  cases x <;> simp [fault?]

/-- Steps that make something of a result that is there raise no fault. -/
theorem fault?_map (x : Except Fault α) (f : α → β) :
    fault? (x >>= fun a => pure (f a)) = fault? x := by
  cases x <;> rfl

/-- Of two steps in a row, the fault of the first comes before that of the second. -/
theorem fault?_bind {f : α → Except Fault β} {rest : Option Fault}
    (h : ∀ a, x = .ok a → fault? (f a) = rest) : fault? (x >>= f) = (fault? x).or rest := by
  cases x with
  | error fault => rfl
  | ok a => exact (h a rfl).trans rfl

/-- What comes first in two runs keeps its place in front of what only one of them goes on to. -/
theorem fault?_bind_or {f : α → Except Fault β} {g : α → Except Fault γ} {rest : Option Fault}
    (h : ∀ a, x = .ok a → fault? (f a) = (fault? (g a)).or rest) :
    fault? (x >>= f) = (fault? (x >>= g)).or rest := by
  cases x with
  | error fault => rfl
  | ok a => exact h a rfl

end Runs

namespace Visit

/-- The visited block without its children. -/
def alone (v : Visit) : Value := .block v.blockPath v.attributes (.list [])

/-- The lines of the visited block by itself, below the path of its parent. -/
def lines (style : Style) (v : Visit) : Except Fault (List Line) :=
  Block.lines style v.path.dropLast v.alone

end Visit

namespace Block

/-! ### One block -/

variable {style : Style} {path : Path}

theorem header_list_eq_ok {parts : List Value} {header : List Char} {address : String}
    (h : Block.header path (.list parts) = .ok (header, address)) : address = dotted parts := by
  obtain ⟨texts, -, h⟩ := bind_eq_ok_iff.mp h
  obtain ⟨chars, -, h⟩ := bind_eq_ok_iff.mp h
  exact (Prod.mk.inj (Except.ok.inj h)).2.symm

/-- The fault of a block by itself comes before those of its children. -/
theorem fault?_block {parts children : List Value} {attributes : Value} {nested : Option Fault}
    (hnested : ∀ follows,
      fault? (itemLines style (path ++ [.text (dotted parts)]) follows children) = nested) :
    fault? (lines style path (.block (.list parts) attributes (.list children))) =
      (fault? (lines style path (.block (.list parts) attributes (.list [])))).or nested := by
  rw [lines, lines]
  refine fault?_bind_or fun found hheader => ?_
  obtain ⟨header, address⟩ := found
  obtain rfl := header_list_eq_ok hheader
  refine fault?_bind_or fun entries _ => fault?_bind_or fun _ _ => fault?_bind_or fun rs _ => ?_
  rw [fault?_map, fault?_map]
  exact hnested _

/-! ### A forest -/

variable {property : List Value → Value → Prop}

mutual

/-- **The first fault of a walk.** A block fails with the fault of the first visited block that
fails by itself. -/
theorem fault?_lines {path : Path} {node : Value}
    (hwritable : ∀ parts attributes, property parts attributes → Value.areWritable parts)
    (h : IsTree property node) :
    ∃ visits, walk path node = .ok visits ∧
      (∀ visit ∈ visits, ∃ parts, visit.blockPath = .list parts ∧
        property parts visit.attributes) ∧
      fault? (lines style path node) =
        visits.findSome? fun visit => fault? (visit.lines style) := by
  obtain ⟨parts, attributes, children, rfl, hproperty, hchildren⟩ := h.exists_eq_block
  have haddress : address (.list parts) = .ok (dotted parts) := by
    simp [address, Value.items?, hwritable parts attributes hproperty]
  obtain ⟨nested, hwalk, hnested, hfault⟩ := fault?_itemLines hwritable hchildren
  refine ⟨⟨path ++ [.text (dotted parts)], .list parts, attributes, .list children⟩ :: nested,
    ?_, ?_, ?_⟩
  · rw [walk]
    exact bind_eq_ok_iff.mpr ⟨_, haddress, bind_eq_ok_iff.mpr ⟨nested, hwalk, rfl⟩⟩
  · exact List.forall_mem_cons.mpr ⟨⟨parts, rfl, hproperty⟩, hnested⟩
  · rw [fault?_block hfault, ← List.singleton_append, List.findSome?_append,
      List.findSome?_singleton, Visit.lines, List.dropLast_concat]
    rfl
termination_by sizeOf node

theorem fault?_itemLines {path : Path} {nodes : List Value}
    (hwritable : ∀ parts attributes, property parts attributes → Value.areWritable parts)
    (h : AreTrees property nodes) :
    ∃ visits, walkItems path nodes = .ok visits ∧
      (∀ visit ∈ visits, ∃ parts, visit.blockPath = .list parts ∧
        property parts visit.attributes) ∧
      ∀ follows, fault? (itemLines style path follows nodes) =
        visits.findSome? fun visit => fault? (visit.lines style) := by
  match nodes with
  | [] => exact ⟨[], rfl, by simp, fun _ => rfl⟩
  | node :: rest =>
    obtain ⟨first, hfirst, hproperty, hfault⟩ := fault?_lines hwritable h.1
    obtain ⟨others, hothers, hproperties, hfaults⟩ := fault?_itemLines hwritable h.2
    refine ⟨first ++ others, ?_, List.forall_mem_append.mpr ⟨hproperty, hproperties⟩, ?_⟩
    · rw [walkItems]
      exact bind_eq_ok_iff.mpr ⟨first, hfirst, bind_eq_ok_iff.mpr ⟨others, hothers, rfl⟩⟩
    · intro follows
      rw [itemLines, List.findSome?_append, ← hfault, ← hfaults true]
      exact fault?_bind fun _ _ => fault?_map _ _
termination_by sizeOf nodes

end

end Block

namespace Document

open Block

/-- A forest fails with the fault of the first visited block that fails by itself. -/
theorem fault?_compile {property : List Value → Value → Prop} {nodes : List Value}
    (format : Format)
    (hwritable : ∀ parts attributes, property parts attributes → Value.areWritable parts)
    (h : AreTrees property nodes) :
    ∃ visits, walkAll (.list nodes) = .ok visits ∧
      (∀ visit ∈ visits, ∃ parts, visit.blockPath = .list parts ∧
        property parts visit.attributes) ∧
      fault? (compile format nodes) =
        visits.findSome? fun visit => fault? (visit.lines format.toStyle) := by
  have hrow : ∀ (nodes : List Value) (follows : Bool), fault? (blockTexts format nodes) =
      fault? (itemLines format.toStyle [] follows nodes) := by
    intro nodes
    induction nodes with
    | nil => exact fun _ => rfl
    | cons node rest ih =>
      intro follows
      have hnode : fault? (Block.compile format 0 node) = fault? (lines format.toStyle [] node) :=
        fault?_map _ _
      rw [blockTexts, itemLines, fault?_bind fun _ _ => fault?_map _ _,
        fault?_bind fun _ _ => fault?_map _ _, hnode, ih true]
  obtain ⟨visits, hwalk, hproperties, hfault⟩ := fault?_itemLines hwritable h
  refine ⟨visits, hwalk, hproperties, ?_⟩
  rw [compile, fault?_map, hrow nodes false, hfault]

/-- **Which fault is reported.** A forest, whose paths are lists of texts and whose children are
lists throughout, fails with a fault exactly when it is that of a visited block by itself and all
visited blocks before it have lines; and it compiles exactly when all visited blocks have lines by
themselves. -/
theorem compile_eq_error_iff {nodes : List Value} (format : Format)
    (h : AreTrees (fun parts _ => ∀ part ∈ parts, ∃ s, part = .text s) nodes) :
    ∃ visits, walkAll (.list nodes) = .ok visits ∧
      (∀ fault, compile format nodes = .error fault ↔
        ∃ before visit after, visits = before ++ visit :: after ∧
          (∀ earlier ∈ before, ∃ ls, earlier.lines format.toStyle = .ok ls) ∧
          visit.lines format.toStyle = .error fault) ∧
      ((∃ text, compile format nodes = .ok text) ↔
        ∀ visit ∈ visits, ∃ ls, visit.lines format.toStyle = .ok ls) := by
  obtain ⟨visits, hwalk, -, hfault⟩ :=
    fault?_compile format (fun _ _ htexts => areWritable_of_texts htexts) h
  refine ⟨visits, hwalk, fun fault => ?_, ?_⟩
  · rw [← fault?_eq_some, hfault, List.findSome?_eq_some_iff]
    constructor
    · rintro ⟨before, visit, after, rfl, hvisit, hbefore⟩
      exact ⟨before, visit, after, rfl,
        fun earlier hmem => fault?_eq_none.mp (hbefore earlier hmem), fault?_eq_some.mp hvisit⟩
    · rintro ⟨before, visit, after, rfl, hbefore, hvisit⟩
      exact ⟨before, visit, after, rfl, fault?_eq_some.mpr hvisit,
        fun earlier hmem => fault?_eq_none.mpr (hbefore earlier hmem)⟩
  · rw [← fault?_eq_none, hfault, List.findSome?_eq_none_iff]
    exact forall₂_congr fun _ _ => fault?_eq_none

/-- A block with two faulty children, of which the first has a value that cannot be written and the
second has no path. -/
def faultyBlocks : List Value :=
  [.block (.list [.text "a"]) (.mapping [(.text "x", .int 1)])
    (.list
      [.block (.list [.text "b", .text "c"]) (.mapping [(.text "y", .list [.set []])]) (.list []),
        .block (.list []) (.mapping []) (.list [])])]

/-- Of two faulty children, the first one's fault is reported. -/
theorem compile_eq_error_faultyBlocks :
    AreTrees (fun parts _ => ∀ part ∈ parts, ∃ s, part = .text s) faultyBlocks ∧
      compile {} faultyBlocks = .error
        (.compile ⟨.unsupported .set, [.text "a", .text "b.c", .text "y", .int 0]⟩) := by
  have htrees : AreTrees (fun parts _ => ∀ part ∈ parts, ∃ s, part = .text s) faultyBlocks := by
    simp [faultyBlocks, AreTrees, IsTree]
  obtain ⟨visits, hwalk, herror, -⟩ := compile_eq_error_iff {} htrees
  obtain rfl := Except.ok.inj hwalk
  refine ⟨htrees, (herror _).mpr ⟨[_], _, [_], rfl, ?_, rfl⟩⟩
  exact List.forall_mem_singleton.mpr ⟨_, rfl⟩

end Document

end Stanza
