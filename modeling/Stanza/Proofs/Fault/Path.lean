import Stanza.Proofs.Fault.First
import Stanza.Proofs.Fault.Leads
import Stanza.Proofs.Layout.Outline

/-!
Error paths lead to the fault.

The path of a compile error begins with the addresses of a chain of blocks, each a child of the one
before it (`Block.Chain`). Where the fault is in the attributes of the last of them, the path goes
on with the name of an attribute and with keys and indices that lead down its value to what is at
fault. `CompileError.PointsInto` says so for each kind of error, and `Document.pointsInto_compile`
that every error of a document built from data does.

The first block in a walk that fails by itself decides which error it is
(`Document.fault?_compile`), so all that is left is to see how one block fails
(`Visit.exists_pointsInto_of_lines`).
-/

namespace Stanza

/-! ### One block -/

namespace Block

/-- The path of a block is a keyword, which is an identifier, and labels that are not empty. -/
def IsPath : List Value → Prop
  | [] => False
  | keyword :: labels => keyword.IsIdentifier ∧ ∀ label ∈ labels, label.IsName

section Faults

variable {path : Path} {fault : Fault}

theorem partTexts_eq_error {all parts : List Value} {index : Nat}
    (h : partTexts path all index parts = .error fault) :
    (∃ place, fault = .ofCause (.pathPart place all) path) ∧ ∃ part ∈ parts, ¬ part.IsName := by
  induction parts generalizing index with
  | nil => simp [partTexts] at h
  | cons part rest ih =>
    rw [partTexts] at h
    split at h
    · obtain ⟨hfault, part, hmem, hname⟩ := ih (map_eq_error_iff.mp h)
      exact ⟨hfault, part, List.mem_cons_of_mem _ hmem, hname⟩
    · rw [fail_eq] at h
      refine ⟨⟨index, (Except.error.inj h).symm⟩, part, List.mem_cons_self, ?_⟩
      cases part <;> simp_all [Value.IsName, Value.nonEmptyText?]

theorem headerOfParts_eq_error {texts : List String}
    (h : headerOfParts path texts = .error fault) :
    ∃ cause : Cause, fault = .ofCause cause path ∧ cause.kind? = some .blockPath ∧
      cause.quotes = [] ∧ ¬ IsPath (texts.map .text) := by
  unfold headerOfParts at h
  split at h
  · rw [fail_eq] at h
    exact ⟨_, (Except.error.inj h).symm, rfl, rfl, id⟩
  · split at h
    · simp at h
    · rename_i hkeyword
      rw [fail_eq] at h
      exact ⟨_, (Except.error.inj h).symm, rfl, rfl, fun hpath => hkeyword hpath.1⟩

theorem IsPath.forall_isName {parts : List Value} (h : IsPath parts) :
    ∀ part ∈ parts, part.IsName := by
  match parts with
  | keyword :: labels =>
    refine List.forall_mem_cons.mpr ⟨?_, h.2⟩
    cases keyword with
    | text s =>
      rintro rfl
      simp [IsPath, Value.IsIdentifier, Text.isIdentifier] at h
    | _ => exact h.1

/-- A header fails above its block, for a path that is none, and quotes nothing but that. -/
theorem header_eq_error {parts : List Value}
    (h : header path (.list parts) = .error fault) :
    ∃ cause : Cause, fault = .ofCause cause path ∧ cause.kind? = some .blockPath ∧
      cause.quotes ⊆ parts ∧ ¬ IsPath parts := by
  rcases bind_eq_error_iff.mp h with h | ⟨texts, htexts, h⟩
  · obtain ⟨⟨place, rfl⟩, part, hmem, hname⟩ := partTexts_eq_error h
    exact ⟨_, rfl, rfl, List.Subset.refl _, fun hparts => hname (hparts.forall_isName part hmem)⟩
  · obtain ⟨rfl, -⟩ := partTexts_eq_ok htexts
    obtain ⟨cause, rfl, hkind, hquotes, hpath⟩ := headerOfParts_eq_error (map_eq_error_iff.mp h)
    exact ⟨cause, rfl, hkind, by simp [hquotes], hpath⟩

end Faults

end Block

theorem Attributes.nameTexts_eq_mapM {path : Path} (entries : Entries) :
    Attributes.nameTexts path entries =
      entries.mapM fun entry => Attributes.nameText path entry.1 := by
  induction entries with
  | nil => rfl
  | cons entry rest ih => rw [nameTexts, List.mapM_cons, ih]

/-- Only the names count. -/
theorem Attributes.nameTexts_congr {path : Path} {entries others : Entries}
    (h : entries.map Prod.fst = others.map Prod.fst) :
    Attributes.nameTexts path entries = Attributes.nameTexts path others := by
  have hnames : ∀ entries : Entries, Attributes.nameTexts path entries =
      (entries.map Prod.fst).mapM (Attributes.nameText path) := by
    intro entries
    rw [nameTexts_eq_mapM, List.mapM_map]
    rfl
  rw [hnames, hnames, h]

theorem Attributes.nameTexts_eq_error {path : Path} {entries : Entries} {fault : Fault}
    (h : Attributes.nameTexts path entries = .error fault) :
    ∃ key value, (key, value) ∈ entries ∧ ¬ key.IsIdentifier ∧
      fault = .ofCause (.attributeName key) (path ++ [key]) := by
  rw [nameTexts_eq_mapM] at h
  obtain ⟨⟨key, value⟩, hmem, (herror : nameText path key = _)⟩ := exists_error_of_mapM h
  refine ⟨key, value, hmem, ?_⟩
  unfold Attributes.nameText at herror
  split at herror
  · split at herror
    · simp at herror
    · rw [fail_eq] at herror
      exact ⟨‹_›, (Except.error.inj herror).symm⟩
  · rw [fail_eq] at herror
    refine ⟨?_, (Except.error.inj herror).symm⟩
    cases key <;> simp_all [Value.IsIdentifier]

/-! ### Whole documents -/

/-- Where an error of a forest points, by what is wrong. -/
inductive CompileError.PointsInto (style : Style) (nodes : List Value) (e : CompileError) :
    Prop where
  /-- The block path of a block is none: the error has the addresses of the blocks above it. -/
  | blockPath {parts : List Value} {attributes children : Value} :
      e.kind? = some .blockPath → ¬ Block.IsPath parts →
      Block.Chain nodes (e.path ++ [.text (dotted parts)])
        (.block (.list parts) attributes children) → e.PointsInto style nodes
  /-- The name of an attribute is no identifier. -/
  | attributeName {blockPath children key value : Value} {entries : Entries} {path : Path} :
      e.kind? = some .attributeName →
      Block.Chain nodes path (.block blockPath (.mapping entries) children) →
      (key, value) ∈ entries → ¬ key.IsIdentifier → e.path = path ++ [key] →
      e.PointsInto style nodes
  /-- Something in the value of an attribute is at fault. -/
  | value {blockPath children name value w : Value} {entries : Entries} {path way last : Path} :
      Block.Chain nodes path (.block blockPath (.mapping entries) children) →
      (name, value) ∈ entries → value.Leads way w → w.IsAtFault style e.cause last →
      e.path = path ++ name :: (way ++ last) → e.PointsInto style nodes

/-- The fault of a block by itself points to the block or into its attributes, and its wording
quotes nothing but the path to it or the path of the block. -/
theorem Visit.exists_pointsInto_of_lines {style : Style} {nodes parts : List Value}
    {entries : Entries} {visit : Visit} {fault : Fault} (hpath : visit.blockPath = .list parts)
    (hattributes : visit.attributes = .mapping entries)
    (hchain : Block.Chain nodes visit.path visit.node) (h : visit.lines style = .error fault) :
    ∃ e : CompileError, e.PointsInto style nodes ∧ fault = .ofCause e.cause e.path ∧
      (e.cause.quotes ⊆ parts ∨ e.cause.quotes ⊆ e.path) := by
  rw [Visit.node, hpath, hattributes] at hchain
  obtain ⟨above, habove⟩ := hchain.exists_eq_append
  rw [Visit.lines, Visit.alone, hpath, hattributes, habove, List.dropLast_concat, Block.lines] at h
  rw [habove] at hchain
  rcases bind_eq_error_iff.mp h with h | ⟨⟨header, address⟩, hheader, h⟩
  · obtain ⟨cause, rfl, hkind, hquotes, hparts⟩ := Block.header_eq_error h
    exact ⟨⟨cause, above⟩, .blockPath hkind hparts hchain, rfl, .inl hquotes⟩
  · obtain rfl := Block.header_list_eq_ok hheader
    have hentries : Attributes.ofEntries style (above ++ [.text (dotted parts)]) entries =
        .error fault := map_eq_error_iff.mp h
    rcases bind_eq_error_iff.mp hentries with hnames | ⟨names, -, hvalues⟩
    · obtain ⟨key, value, hmem, hname, rfl⟩ := Attributes.nameTexts_eq_error hnames
      refine ⟨⟨.attributeName key, _⟩, .attributeName rfl hchain hmem hname rfl, rfl, .inr ?_⟩
      simp [Cause.quotes]
    · obtain ⟨⟨name, value⟩, hmem, herror⟩ :=
        Value.renderEntries_eq_error (map_eq_error_iff.mp hvalues)
      obtain ⟨cause, way, w, last, rfl, hleads, hfault, hquotes⟩ :=
        Value.exists_leads_of_encode herror
      refine ⟨⟨cause, _⟩, .value hchain hmem hleads hfault (by simp), rfl, .inr ?_⟩
      exact List.Subset.trans hquotes fun _ hlast =>
        List.mem_append_right _ (List.mem_append_right _ hlast)

/-- The error of a block by itself points to the block or into its attributes. -/
theorem Visit.pointsInto_of_lines {style : Style} {nodes parts : List Value} {entries : Entries}
    {visit : Visit} {e : CompileError} (hpath : visit.blockPath = .list parts)
    (hattributes : visit.attributes = .mapping entries)
    (hchain : Block.Chain nodes visit.path visit.node)
    (h : visit.lines style = .error (.compile e)) : e.PointsInto style nodes := by
  obtain ⟨found, hpoints, hfault, -⟩ :=
    Visit.exists_pointsInto_of_lines hpath hattributes hchain h
  obtain ⟨rfl, -⟩ := Fault.eq_of_ofCause_eq_compile hfault.symm
  exact hpoints

namespace Document

/-- **Error paths lead to the fault.** The path of every compile error of a document built from data
leads down a chain of blocks to what is at fault: a child of the last of them whose block path is
none; an attribute whose name is no identifier; or, by keys and indices in the value of an
attribute, a value that fails in the same way by itself, an object with an offending key or a
template marker with an item that is no segment. -/
theorem pointsInto_compile {source : String} {data : Value} {nodes : List Value} {e : CompileError}
    (format : Format) (hnodes : blocks source data = .ok nodes)
    (h : compile format nodes = .error (.compile e)) : e.PointsInto format.toStyle nodes := by
  obtain ⟨visits, hwalk, hbuilt, hfault⟩ :=
    fault?_compile format (fun _ _ hbuilt => hbuilt.1) (areTrees_of_blocks hnodes)
  rw [fault?_eq_some.mpr h] at hfault
  obtain ⟨visit, hvisit, hlines⟩ := List.exists_of_findSome?_eq_some hfault.symm
  obtain ⟨way, hpath, hchain⟩ :=
    Block.exists_chain_of_walkItems (areTrees_of_blocks hnodes) hwalk visit hvisit
  rw [List.nil_append] at hpath
  obtain ⟨parts, hparts, -, entries, hattributes⟩ := hbuilt visit hvisit
  exact Visit.pointsInto_of_lines hparts hattributes (hpath ▸ hchain) (fault?_eq_some.mp hlines)

/-- A definition with a block inside another. The attribute of the inner one has a list whose second
item is a template marker with an item that is no segment. -/
def faultyDefinition : Value :=
  .mapping
    [(.text "block", .text "a"),
      (.text "child", .mapping
        [(.text "block", .list [.text "b", .text "c"]),
          (.text "attributes", .mapping
            [(.text "x", .list
              [.int 1, .mapping [(.text "$template", .list [.text "t", .mapping
                [(.text "$func", .text "f()")]])]])])])]

/-- The path of its error goes down the two blocks, the attribute, the list and the marker. -/
theorem pointsInto_compile_faultyDefinition :
    ∃ nodes, blocks anonymousSource faultyDefinition = .ok nodes ∧
      compile {} nodes = .error (.compile
        ⟨.markerSegment .raw, [.text "a", .text "b.c", .text "x", .int 1, .int 1]⟩) ∧
      CompileError.PointsInto {} nodes
        ⟨.markerSegment .raw, [.text "a", .text "b.c", .text "x", .int 1, .int 1]⟩ := by
  have hnodes : blocks anonymousSource faultyDefinition = .ok
      [.block (.list [.text "a"]) (.mapping [])
        (.list [.block (.list [.text "b", .text "c"])
          (.mapping [(.text "x", .list [.int 1, .mapping [(.text "$template", .list
            [.text "t", .mapping [(.text "$func", .text "f()")]])]])]) (.list [])])] := by
    have hdocument : Definition.ofDocument faultyDefinition = .ok [faultyDefinition] := rfl
    rw [blocks, hdocument]
    simp [faultyDefinition, Definition.toBlocks, Definition.toBlock, Definition.build,
      Definition.childrenIn, Definition.childBlocks]
    rfl
  exact ⟨_, hnodes, rfl, pointsInto_compile {} hnodes rfl⟩

end Document

end Stanza
