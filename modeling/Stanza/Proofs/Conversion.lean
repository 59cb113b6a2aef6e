import Stanza.Convert
import Stanza.Proofs.Encoding
import Stanza.Proofs.Files.Blocked
import Stanza.Proofs.Steps

/-!
Conversions are all or nothing.

A conversion goes through its stages in order, and the file is opened in the last of them. So either
the document is there afterwards and the rest of the files is as before, except that directories
above the document may have been made; or the conversion fails in one of its stages, and every file
has the contents it had before (`Convert.run_allOrNothing`). The last stage fails only where
something is in the way of the document, which can be said of the files as they were
(`Files.Blocked`). This holds whatever reads the source and whatever verifies the document.
-/

namespace Stanza

namespace Convert

/-- How a conversion to a path fails: with the error of the first stage that does not succeed, and
with the files that this stage leaves. -/
inductive Fails (tools : Tools) (files : Files) (source : String) (path : FilePath)
    (format : Format) (verify : Bool) : ConvertError → Files → Prop where
  | load {error : LoadError} :
      Source.load tools.toReaders files source = .error error →
      Fails tools files source path format verify (.load error) files
  | compile {nodes : List Value} {fault : Fault} :
      Source.load tools.toReaders files source = .ok nodes →
      Document.compile format nodes = .error fault →
      Fails tools files source path format verify (.compile fault) files
  | verify {nodes : List Value} {text : List Char} {account : String} :
      Source.load tools.toReaders files source = .ok nodes →
      Document.compile format nodes = .ok text →
      verify = true → tools.verify text = .error account →
      Fails tools files source path format verify (.unsound account) files
  | write {nodes : List Value} {text : List Char} {error : FileError} {after : Files} :
      Source.load tools.toReaders files source = .ok nodes →
      Document.compile format nodes = .ok text →
      (verify = true → tools.verify text = .ok ()) →
      files.Blocked path → (writeDocument path text).run files = (.error error, after) →
      Fails tools files source path format verify (.output error) after

/-- The stages before the last come to a text, or fail without a change to any file. -/
theorem text_cases (tools : Tools) (files : Files) (source : String) (path : FilePath)
    (format : Format) (verify : Bool) :
    (∃ nodes made, text tools files source format verify = .ok made ∧
      Source.load tools.toReaders files source = .ok nodes ∧
      Document.compile format nodes = .ok made ∧
      (verify = true → tools.verify made = .ok ())) ∨
    ∃ error, text tools files source format verify = .error error ∧
      Fails tools files source path format verify error files := by
  unfold text ofBlocks
  cases hload : Source.load tools.toReaders files source with
  | error error => exact .inr ⟨.load error, rfl, .load hload⟩
  | ok nodes =>
    cases hcompile : Document.compile format nodes with
    | error fault =>
      refine .inr ⟨.compile fault, ?_, .compile hload hcompile⟩
      simp [Except.mapError, bind, Except.bind, hcompile]
    | ok made =>
      cases verify with
      | false =>
        refine .inl ⟨nodes, made, ?_, rfl, hcompile, nofun⟩
        simp [Except.mapError, bind, Except.bind, hcompile, pure, Except.pure]
      | true =>
        cases hverify : tools.verify made with
        | error account =>
          refine .inr ⟨.unsound account, ?_, .verify hload hcompile rfl hverify⟩
          simp [Except.mapError, bind, Except.bind, hcompile, hverify]
        | ok _ =>
          refine .inl ⟨nodes, made, ?_, rfl, hcompile, fun _ => hverify⟩
          simp [Except.mapError, bind, Except.bind, hcompile, hverify, pure, Except.pure]

/-- **Conversions are all or nothing.** Either nothing is in the way of the document, its file holds
what the source compiles to, as a text that reads back, and nothing else is changed but that
directories above it may have been made; or the conversion fails, and every file is there with the
contents that it had before. -/
theorem run_allOrNothing (tools : Tools) (files : Files) (source directory file : String)
    (format : Format) (verify : Bool) :
    let path := (FilePath.ofText directory).below (.ofText file)
    let place := Files.locate path
    (∃ nodes text after,
      run tools files source directory file format verify = (.ok path, after) ∧
      Source.load tools.toReaders files source = .ok nodes ∧
      Document.compile format nodes = .ok text ∧
      (verify = true → tools.verify text = .ok ()) ∧
      ¬files.Blocked path ∧
      after.item? place = some (.file (Text.encode text)) ∧
      Text.decode (Text.encode text) = some text ∧
      ∀ other, other ≠ place → after.item? other = files.item? other ∨
        files.item? other = none ∧ after.item? other = some .directory ∧
          Files.IsAbove path.parent other) ∨
    ∃ error after,
      run tools files source directory file format verify = (.error error, after) ∧
      Fails tools files source path format verify error after ∧
      (∀ other bytes,
        after.item? other = some (.file bytes) ↔ files.item? other = some (.file bytes)) ∧
      Files.Grows (Files.IsAbove path.parent) files after := by
  intro path place
  have hpath : outputPath directory file = path := rfl
  unfold run
  rcases text_cases tools files source path format verify with
    ⟨nodes, made, htext, hload, hcompile, hverify⟩ | ⟨error, hfailed, hfails⟩
  · rw [htext]
    rcases Files.writeBelow_cases path (Text.encode made) files with
      ⟨hfree, grown, hgrown, hnew, hrun⟩ | ⟨hblocked, error, after, hrun, hgrows⟩
    · refine .inl ⟨nodes, made, grown.put place (.file (Text.encode made)), ?_, hload, hcompile,
        hverify, hfree, ?_, Text.decode_encode made, fun other hother => ?_⟩
      · simp only [writeDocument, hpath]
        rw [hrun]
      · rw [Files.item?_put _ _ hnew, if_pos rfl]
      · rw [Files.item?_put _ _ hnew, if_neg hother]
        exact hgrown other
    · refine .inr ⟨.output error, after, ?_, .write hload hcompile hverify hblocked hrun,
        hgrows.file_iff, hgrows⟩
      simp only [writeDocument, hpath]
      rw [hrun]
  · rw [hfailed]
    exact .inr ⟨error, files, rfl, hfails, fun _ _ => Iff.rfl, .refl files⟩

end Convert

end Stanza
