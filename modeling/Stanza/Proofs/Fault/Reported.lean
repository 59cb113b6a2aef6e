import Stanza.Proofs.Fault.Path

/-!
How compilation ends.

A document of blocks that were built from data compiles, or one thing in it is at fault: a compile
error points there, and it has one of the four kinds. What is raised is that error, unless the path
to the fault holds an integer that has too many digits to be written. Then there is no message, and
a fault is raised that is no compile error at all (`Document.compile_ends`). Nothing else that a
message quotes can keep it from being written: values that are turned down are named by their kind,
keys stand on the path, and the path of a block that was built has a text.
-/

namespace Stanza

theorem Value.areWritable_iff {values : List Value} :
    Value.areWritable values ↔ ∀ v ∈ values, v.isWritable := by
  induction values with
  | nil => simp [areWritable]
  | cons v rest ih => simp [areWritable, ih]

theorem Value.areWritable_of_subset {values others : List Value} (hsubset : values ⊆ others)
    (h : Value.areWritable others) : Value.areWritable values :=
  areWritable_iff.mpr fun v hv => areWritable_iff.mp h v (hsubset hv)

/-- Where all that the wording quotes can be written if the path can, only the path counts. -/
theorem Fault.ofCause_eq_ite {cause : Cause} {path : Path}
    (h : Value.areWritable path → Value.areWritable cause.quotes) :
    Fault.ofCause cause path =
      if Value.areWritable path then .compile ⟨cause, path⟩ else .unwritable := by
  unfold Fault.ofCause
  cases hpath : Value.areWritable path with
  | true => rw [h hpath, Bool.and_self]
  | false => rw [Bool.and_false]

/-- What points into a forest has one of the four kinds. -/
theorem CompileError.PointsInto.exists_kind {style : Style} {nodes : List Value}
    {e : CompileError} (h : e.PointsInto style nodes) : ∃ kind, e.kind? = some kind := by
  have hvalue : e.cause.IsOfValue → ∃ kind, e.kind? = some kind := by
    rintro (hkind | hkind)
    · exact ⟨_, hkind⟩
    · exact ⟨_, hkind⟩
  cases h with
  | blockPath hkind _ _ => exact ⟨_, hkind⟩
  | attributeName hkind _ _ _ _ => exact ⟨_, hkind⟩
  | value _ _ _ hfault _ =>
    cases hfault with
    | value hcause _ => exact hvalue hcause
    | key hkind _ _ _ => exact ⟨_, hkind⟩
    | segment hcause _ _ => exact hvalue hcause

namespace Document

/-- **How compilation ends.** A document of blocks that were built from data compiles, whatever the
format; or it fails with a compile error of one of the four kinds, whose path leads to what is at
fault. The one exception is a path to the fault that holds an integer of more digits than can be
written: then the failure is no compile error. -/
theorem compile_ends {source : String} {data : Value} {nodes : List Value} (format : Format)
    (hnodes : blocks source data = .ok nodes) :
    (∃ text, compile format nodes = .ok text) ∨
      ∃ (e : CompileError) (kind : ErrorKind), e.kind? = some kind ∧
        e.PointsInto format.toStyle nodes ∧
        compile format nodes =
          .error (if Value.areWritable e.path then .compile e else .unwritable) := by
  obtain ⟨visits, hwalk, hbuilt, hfault⟩ :=
    fault?_compile format (fun _ _ hbuilt => hbuilt.1) (areTrees_of_blocks hnodes)
  cases hcompile : compile format nodes with
  | ok text => exact .inl ⟨text, rfl⟩
  | error fault =>
    rw [fault?_eq_some.mpr hcompile] at hfault
    obtain ⟨visit, hvisit, hlines⟩ := List.exists_of_findSome?_eq_some hfault.symm
    obtain ⟨way, hpath, hchain⟩ :=
      Block.exists_chain_of_walkItems (areTrees_of_blocks hnodes) hwalk visit hvisit
    rw [List.nil_append] at hpath
    obtain ⟨parts, hparts, hwritable, entries, hattributes⟩ := hbuilt visit hvisit
    obtain ⟨e, hpoints, rfl, hquotes⟩ := Visit.exists_pointsInto_of_lines hparts hattributes
      (hpath ▸ hchain) (fault?_eq_some.mp hlines)
    obtain ⟨kind, hkind⟩ := hpoints.exists_kind
    refine .inr ⟨e, kind, hkind, hpoints, congrArg Except.error (Fault.ofCause_eq_ite ?_)⟩
    intro hwritablePath
    rcases hquotes with hquotes | hquotes
    · exact Value.areWritable_of_subset hquotes hwritable
    · exact Value.areWritable_of_subset hquotes hwritablePath

/-- An integer of 4301 digits. -/
def longNumber : Int := (Nat.pow 10 4300 : Nat)

theorem withinDigitLimit_longNumber : withinDigitLimit longNumber = false := by decide +kernel

/-- A definition with an attribute whose name is that integer. -/
def longNamed : Value :=
  .mapping [(.text "block", .text "a"), (.text "attributes", .mapping [(.int longNumber, .null)])]

theorem blocks_longNamed : blocks anonymousSource longNamed =
    .ok [.block (.list [.text "a"]) (.mapping [(.int longNumber, .null)]) (.list [])] := by
  have hdocument : Definition.ofDocument longNamed = .ok [longNamed] := rfl
  rw [blocks, hdocument]
  simp [longNamed, Definition.toBlocks, Definition.toBlock, Definition.build,
    Definition.childrenIn]
  rfl

/-- The error of that definition would quote the integer. -/
theorem compile_ends_longNamed : ∃ nodes, blocks anonymousSource longNamed = .ok nodes ∧
    ((∃ text, compile {} nodes = .ok text) ∨
      ∃ (e : CompileError) (kind : ErrorKind), e.kind? = some kind ∧
        e.PointsInto (Format.toStyle {}) nodes ∧
        compile {} nodes =
          .error (if Value.areWritable e.path then .compile e else .unwritable)) :=
  ⟨_, blocks_longNamed, compile_ends {} blocks_longNamed⟩

/-- Its blocks neither compile nor fail with a compile error. -/
theorem longNamed_unreported : ∃ nodes, blocks anonymousSource longNamed = .ok nodes ∧
    (∀ text, compile {} nodes ≠ .ok text) ∧ ∀ e, compile {} nodes ≠ .error (.compile e) := by
  have hname : ∀ path, Attributes.nameText path (.int longNumber) = .error .unwritable := by
    intro path
    simp [Attributes.nameText, fail, Cause.quotes, Value.areWritable, Value.isWritable,
      withinDigitLimit_longNumber]
  have hlines : Block.lines {} []
      (.block (.list [.text "a"]) (.mapping [(.int longNumber, .null)]) (.list [])) =
        .error .unwritable := by
    rw [Block.lines]
    have hheader : Block.header [] (.list [.text "a"]) = .ok (['a'], "a") := rfl
    simp [hheader, Block.attributeEntries, Block.checkChildren, Block.areChildren,
      Attributes.ofEntries, Attributes.nameTexts, hname, bind, Except.bind]
  have hcompile : compile {}
      [.block (.list [.text "a"]) (.mapping [(.int longNumber, .null)]) (.list [])] =
        .error .unwritable := by
    simp only [compile, blockTexts, Block.compile]
    rw [hlines]
    rfl
  exact ⟨_, blocks_longNamed, by simp [hcompile], by simp [hcompile]⟩

end Document

end Stanza
