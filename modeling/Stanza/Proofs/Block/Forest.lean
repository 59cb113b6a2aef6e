import Stanza.Block.Definition
import Stanza.Block.Walk
import Stanza.Proofs.Layout.Shape

/-!
Forests of blocks.

A forest is well formed, `Block.AreTrees`, when at every level the path of a block is a list and its
children are a list of blocks, and the paths and attributes have what property is asked for. Blocks
that are built from data are such a forest (`Document.areTrees_of_blocks`), so of all that can be
wrong with blocks, few things are left once they come from data.

`Block.Chain` follows a forest down to one of its blocks and keeps the addresses on the way. A walk
goes down these chains (`Block.exists_chain_of_walkItems`).
-/

namespace Stanza

/-! ### Well-formed forests -/

namespace Block

mutual

/-- A block whose path is a list, whose path and attributes have a property, and whose children are
a list of such blocks. -/
def IsTree (property : List Value → Value → Prop) : Value → Prop
  | .block (.list parts) attributes (.list children) =>
      property parts attributes ∧ AreTrees property children
  | _ => False

/-- Blocks whose paths, like those of all blocks in them, are lists with a property. -/
def AreTrees (property : List Value → Value → Prop) : List Value → Prop
  | [] => True
  | node :: rest => IsTree property node ∧ AreTrees property rest

end

theorem IsTree.exists_eq_block {property : List Value → Value → Prop} {node : Value}
    (h : IsTree property node) :
    ∃ parts attributes children, node = .block (.list parts) attributes (.list children) ∧
      property parts attributes ∧ AreTrees property children := by
  unfold IsTree at h
  split at h
  · exact ⟨_, _, _, rfl, h.1, h.2⟩
  · exact absurd h id

theorem AreTrees.append {property : List Value → Value → Prop} {above below : List Value}
    (h : AreTrees property above) (h' : AreTrees property below) :
    AreTrees property (above ++ below) := by
  induction above with
  | nil => exact h'
  | cons node rest ih => exact ⟨h.1, ih h.2⟩

theorem areWritable_of_texts {parts : List Value} (h : ∀ part ∈ parts, ∃ s, part = .text s) :
    Value.areWritable parts := by
  induction parts with
  | nil => rfl
  | cons part rest ih =>
    obtain ⟨⟨s, rfl⟩, hrest⟩ := List.forall_mem_cons.mp h
    simpa [Value.areWritable, Value.isWritable] using ih hrest

end Block

/-! ### Blocks built from data -/

namespace Definition

open Block

/-- What data makes of the path and the attributes of a block: parts whose address can be written,
and a mapping. -/
def IsBuilt (parts : List Value) (attributes : Value) : Prop :=
  Value.areWritable parts ∧ ∃ entries, attributes = .mapping entries

variable {path : Path}

theorem areWritable_of_locator {parts : List Value} {found : Value}
    (h : locator parts = .ok found) : Value.areWritable parts := by
  unfold locator at h
  split at h
  · assumption
  · simp at h

theorem attributes_eq_ok {given : Option Value} {found : Value}
    (h : attributes path given = .ok found) : ∃ entries, found = .mapping entries := by
  unfold attributes at h
  split at h
  · exact ⟨[], (Except.ok.inj h).symm⟩
  · exact ⟨[], (Except.ok.inj h).symm⟩
  · exact ⟨_, (Except.ok.inj h).symm⟩
  · exact absurd h fail_ne_ok

theorem isTree_of_build {entries : Entries} {children : Path → Except Fault (List Value)}
    {node : Value} (hchildren : ∀ here nested, children here = .ok nested → AreTrees IsBuilt nested)
    (h : build entries children path = .ok node) : IsTree IsBuilt node := by
  obtain ⟨unknown, -, h⟩ := bind_eq_ok_iff.mp h
  split at h
  · split at h
    · exact absurd h fail_ne_ok
    · obtain ⟨parts, -, h⟩ := bind_eq_ok_iff.mp h
      obtain ⟨found, hlocator, h⟩ := bind_eq_ok_iff.mp h
      obtain ⟨attributes, hattributes, h⟩ := bind_eq_ok_iff.mp h
      obtain ⟨nested, hnested, h⟩ := bind_eq_ok_iff.mp h
      obtain rfl := Except.ok.inj h
      exact ⟨⟨areWritable_of_locator hlocator, attributes_eq_ok hattributes⟩,
        hchildren _ _ hnested⟩
  · exact absurd h fail_ne_ok

mutual

/-- A definition makes a block whose attributes, like those of all blocks in it, are a mapping. -/
theorem isTree_of_toBlock {path : Path} {definition node : Value}
    (h : toBlock definition path = .ok node) : IsTree IsBuilt node := by
  match definition with
  | .mapping entries =>
    rw [toBlock] at h
    exact isTree_of_build (fun _ _ hnested => areTrees_of_childrenIn hnested) h
  | .null | .bool _ | .int _ | .float _ | .text _ | .bytes _ | .buffer _ | .list _ | .tuple _
  | .set _ | .date _ | .moment _ | .foreign _ | .reference _ | .raw _ | .template _
  | .literal _ | .sequence _ | .object _ | .block .. =>
    simp only [toBlock] at h
    exact absurd h fail_ne_ok
termination_by structural definition

theorem areTrees_of_childrenIn {path : Path} {entries : List (Value × Value)} {nodes : List Value}
    (h : childrenIn entries path = .ok nodes) : AreTrees IsBuilt nodes := by
  match entries with
  | [] =>
    obtain rfl : [] = nodes := by simpa [childrenIn] using h
    trivial
  | (key, value) :: rest =>
    have hrest : childrenIn rest path = .ok nodes → AreTrees IsBuilt nodes :=
      areTrees_of_childrenIn
    unfold childrenIn at h
    split at h
    · simp_all
    · obtain ⟨hentry, rfl⟩ := List.cons.inj ‹_›
      obtain ⟨rfl, rfl⟩ := Prod.mk.inj hentry
      split at h
      · exact areTrees_of_childBlocks h
      · exact hrest h
    · obtain ⟨-, rfl⟩ := List.cons.inj ‹_›
      exact hrest h
termination_by structural entries

theorem areTrees_of_childBlocks {path : Path} {definitions : Value} {nodes : List Value}
    (h : childBlocks definitions path = .ok nodes) : AreTrees IsBuilt nodes := by
  match definitions with
  | .null =>
    obtain rfl : [] = nodes := by simpa [childBlocks] using h
    trivial
  | .mapping entries =>
    rw [childBlocks] at h
    obtain ⟨node, hnode, h⟩ := bind_eq_ok_iff.mp h
    obtain rfl := Except.ok.inj h
    exact ⟨isTree_of_build (fun _ _ hnested => areTrees_of_childrenIn hnested) hnode, trivial⟩
  | .list items =>
    rw [childBlocks] at h
    exact areTrees_of_toBlocks h
  | .bool _ | .int _ | .float _ | .text _ | .bytes _ | .buffer _ | .tuple _
  | .set _ | .date _ | .moment _ | .foreign _ | .reference _ | .raw _ | .template _
  | .literal _ | .sequence _ | .object _ | .block .. =>
    simp only [childBlocks] at h
    exact absurd h fail_ne_ok
termination_by structural definitions

theorem areTrees_of_toBlocks {path : Path} {items nodes : List Value}
    (h : toBlocks items path = .ok nodes) : AreTrees IsBuilt nodes := by
  match items with
  | [] =>
    obtain rfl : [] = nodes := by simpa [toBlocks] using h
    trivial
  | item :: rest =>
    rw [toBlocks] at h
    obtain ⟨first, hfirst, h⟩ := bind_eq_ok_iff.mp h
    obtain ⟨others, hothers, h⟩ := bind_eq_ok_iff.mp h
    obtain rfl := Except.ok.inj h
    exact ⟨isTree_of_toBlock hfirst, areTrees_of_toBlocks hothers⟩
termination_by structural items

end

end Definition

theorem Document.areTrees_of_blocks {source : String} {data : Value} {nodes : List Value}
    (h : Document.blocks source data = .ok nodes) : Block.AreTrees Definition.IsBuilt nodes := by
  unfold Document.blocks at h
  split at h
  · simp at h
  · rename_i definitions _
    cases hnodes : Definition.toBlocks definitions [] with
    | error fault => simp [hnodes, Except.mapError] at h
    | ok built =>
      obtain rfl : built = nodes := by simpa [hnodes, Except.mapError] using h
      exact Definition.areTrees_of_toBlocks hnodes

/-! ### Chains of blocks -/

namespace Block

/-- A chain of blocks from a forest down to a block, each a child of the one before, with their
addresses. -/
inductive Chain : List Value → Path → Value → Prop where
  | top {nodes parts : List Value} {attributes children : Value} :
      .block (.list parts) attributes children ∈ nodes →
      Chain nodes [.text (dotted parts)] (.block (.list parts) attributes children)
  | inside {nodes parts children : List Value} {attributes node : Value} {path : Path} :
      .block (.list parts) attributes (.list children) ∈ nodes → Chain children path node →
      Chain nodes (.text (dotted parts) :: path) node

section Chains

variable {nodes : List Value} {path : Path} {node : Value}

theorem Chain.mono {more : List Value} (h : Chain nodes path node) (hsub : nodes ⊆ more) :
    Chain more path node := by
  cases h with
  | top hmem => exact .top (hsub hmem)
  | inside hmem hchain => exact .inside (hsub hmem) hchain

/-- The addresses of a chain end with that of the block it leads to. -/
theorem Chain.exists_eq_append {parts : List Value} {attributes children : Value}
    (h : Chain nodes path (.block (.list parts) attributes children)) :
    ∃ above, path = above ++ [.text (dotted parts)] := by
  generalize hnode : Value.block (.list parts) attributes children = node at h
  induction h with
  | top hmem =>
    obtain ⟨hparts, -, -⟩ := Value.block.inj hnode
    obtain rfl := Value.list.inj hparts
    exact ⟨[], rfl⟩
  | inside hmem hchain ih =>
    obtain ⟨above, rfl⟩ := ih hnode
    exact ⟨_ :: above, rfl⟩

variable {property : List Value → Value → Prop}

mutual

/-- A walk goes down chains of blocks. -/
theorem exists_chain_of_walk {path : Path} {node : Value} {visits : List Visit}
    (h : IsTree property node) (hwalk : walk path node = .ok visits) :
    ∀ visit ∈ visits, ∃ way, visit.path = path ++ way ∧ Chain [node] way visit.node := by
  obtain ⟨parts, attributes, children, rfl, -, hchildren⟩ := h.exists_eq_block
  obtain ⟨address, haddress, hwalk⟩ := bind_eq_ok_iff.mp hwalk
  obtain ⟨nested, hnested, hwalk⟩ := bind_eq_ok_iff.mp hwalk
  obtain rfl := Except.ok.inj hwalk
  obtain rfl : address = dotted parts := by
    simp only [Block.address, Value.items?] at haddress
    split at haddress <;> simp_all
  refine List.forall_mem_cons.mpr ⟨⟨_, rfl, .top List.mem_cons_self⟩, fun visit hvisit => ?_⟩
  obtain ⟨way, hpath, hchain⟩ := exists_chain_of_walkItems hchildren hnested visit hvisit
  exact ⟨_ :: way, by simp [hpath], .inside List.mem_cons_self hchain⟩
termination_by sizeOf node

theorem exists_chain_of_walkItems {path : Path} {nodes : List Value} {visits : List Visit}
    (h : AreTrees property nodes) (hwalk : walkItems path nodes = .ok visits) :
    ∀ visit ∈ visits, ∃ way, visit.path = path ++ way ∧ Chain nodes way visit.node := by
  match nodes with
  | [] =>
    obtain rfl : [] = visits := Except.ok.inj hwalk
    simp
  | node :: rest =>
    obtain ⟨first, hfirst, hwalk⟩ := bind_eq_ok_iff.mp hwalk
    obtain ⟨others, hothers, hwalk⟩ := bind_eq_ok_iff.mp hwalk
    obtain rfl := Except.ok.inj hwalk
    intro visit hvisit
    rcases List.mem_append.mp hvisit with hvisit | hvisit
    · obtain ⟨way, hpath, hchain⟩ := exists_chain_of_walk h.1 hfirst visit hvisit
      exact ⟨way, hpath, hchain.mono (by simp)⟩
    · obtain ⟨way, hpath, hchain⟩ := exists_chain_of_walkItems h.2 hothers visit hvisit
      exact ⟨way, hpath, hchain.mono (List.subset_cons_self node rest)⟩
termination_by sizeOf nodes

end

end Chains

end Block

end Stanza
