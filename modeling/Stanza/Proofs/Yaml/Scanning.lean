import Stanza.Proofs.Steps
import Stanza.Yaml.Token

/-!
How cutting a YAML text into tokens fails.

Nearly every fault is that the text is not in the language. The exceptions are an escape for a code
beyond the last character and a version number with too many digits to be read,
`ReadError.IsLexical`. Every function of the scanner ends in one of these if it fails, and if it
does not, no fault is among the tokens that it has made (`Scanner.ends_step`). So a token that
stands for a fault stands for one of these (`isLexical_of_bad_mem`).
-/

namespace Stanza.Yaml

/-- What cutting a text into tokens can fail for. -/
inductive ReadError.IsLexical : ReadError → Prop where
  | malformed : IsLexical .malformed
  /-- An escape denotes a code that is no character. -/
  | escape {code : Nat} {error : ReadError} : charOfCode code = .error error → IsLexical error
  /-- The version in a directive has too many digits. -/
  | version {digits : Nat} : digitLimit < digits → IsLexical (.tooLong digits)

/-- A run ends well with something of a sort, or it fails for something lexical. -/
def Ends {α : Type} (Good : α → Prop) (run : Except ReadError α) : Prop :=
  (∀ a, run = .ok a → Good a) ∧ ∀ error, run = .error error → error.IsLexical

namespace Ends

variable {α β : Type} {P : α → Prop} {Q : β → Prop} {run : Except ReadError α}

theorem ok {a : α} (h : P a) : Ends P (.ok a) := by
  refine ⟨?_, by simp⟩
  rintro _ ⟨⟩
  exact h

theorem malformed : Ends P (.error .malformed) := by
  refine ⟨by simp, ?_⟩
  rintro _ ⟨⟩
  exact .malformed

theorem bind {next : α → Except ReadError β} (h : Ends P run) (hnext : ∀ a, P a → Ends Q (next a)) :
    Ends Q (run >>= next) := by
  cases run with
  | ok a => exact hnext a (h.1 a rfl)
  | error e =>
    refine ⟨nofun, ?_⟩
    rintro _ ⟨⟩
    exact h.2 e rfl

theorem map {f : α → β} (h : Ends P run) (hf : ∀ a, P a → Q (f a)) :
    Ends Q (run >>= fun a => pure (f a)) :=
  h.bind fun a ha => .ok (hf a ha)

theorem ite {c : Prop} [Decidable c] {other : Except ReadError α} (h : Ends P run)
    (hother : Ends P other) : Ends P (if c then run else other) := by
  split
  · exact h
  · exact hother

end Ends

/-- A run fails, if it does, for something lexical. -/
abbrev FailsLexically {α : Type} (run : Except ReadError α) : Prop := Ends (fun _ => True) run

namespace FailsLexically

variable {α β : Type} {run : Except ReadError α}

theorem ok (a : α) : FailsLexically (.ok a) := Ends.ok trivial

theorem bind {next : α → Except ReadError β} (h : FailsLexically run)
    (hnext : ∀ a, FailsLexically (next a)) : FailsLexically (run >>= next) :=
  Ends.bind h fun a _ => hnext a

theorem map {f : α → β} (h : FailsLexically run) : FailsLexically (run >>= fun a => pure (f a)) :=
  Ends.map h fun _ _ => trivial

theorem ite {c : Prop} [Decidable c] {other : Except ReadError α} (h : FailsLexically run)
    (hother : FailsLexically other) : FailsLexically (if c then run else other) :=
  Ends.ite h hother

end FailsLexically

/-! ### Scalars and names -/

theorem failsLexically_endLine (p : Cursor) : FailsLexically p.endLine := by
  unfold Cursor.endLine
  exact .ite (.ok _) .malformed

theorem failsLexically_quotedBreaks (fuel : Nat) (p : Cursor) :
    FailsLexically (quotedBreaks fuel p) := by
  induction fuel generalizing p with
  | zero => exact .malformed
  | succ fuel ih =>
    unfold quotedBreaks
    split
    · exact .malformed
    · simp only
      split
      · exact .ok _
      · exact .map (ih _)

theorem failsLexically_quotedBlanks (p : Cursor) : FailsLexically (quotedBlanks p) := by
  unfold quotedBlanks
  simp only
  split
  · exact .malformed
  · exact .ok _
  · exact .map (failsLexically_quotedBreaks _ _)

theorem failsLexically_charOfCode (code : Nat) : FailsLexically (charOfCode code) :=
  ⟨fun _ _ => trivial, fun _ => .escape⟩

theorem failsLexically_escaped (p : Cursor) : FailsLexically (escaped p) := by
  unfold escaped
  split
  · exact .malformed
  · split
    · exact .ok _
    · simp only
      split
      · exact .map (failsLexically_charOfCode _)
      · exact .malformed
    · split
      · exact failsLexically_quotedBreaks _ _
      · exact .malformed

theorem failsLexically_quotedText (quote : Char) (fuel : Nat) (p : Cursor) :
    FailsLexically (quotedText quote fuel p) := by
  induction fuel generalizing p with
  | zero => exact .malformed
  | succ fuel ih =>
    unfold quotedText
    split
    · exact .malformed
    · split
      · split
        · exact .map (ih _)
        · exact .ok _
      split
      · exact .bind (failsLexically_escaped _) fun _ => .map (ih _)
      split
      · exact .bind (failsLexically_quotedBlanks _) fun _ => .map (ih _)
      · exact .map (ih _)

theorem failsLexically_quotedScalar (p : Cursor) : FailsLexically (quotedScalar p) := by
  unfold quotedScalar
  split
  · exact failsLexically_quotedText _ _ _
  · exact .malformed

theorem failsLexically_blockHeader (p : Cursor) : FailsLexically (blockHeader p) := by
  unfold blockHeader
  exact .ite .malformed (.map (failsLexically_endLine _))

theorem failsLexically_blockScalar (folded : Bool) (indent : Int) (p : Cursor) :
    FailsLexically (blockScalar folded indent p) :=
  .map (failsLexically_blockHeader _)

theorem failsLexically_anchorName (p : Cursor) : FailsLexically (anchorName p) := by
  unfold anchorName
  simp only
  split
  · exact .malformed
  · exact .ok _

theorem failsLexically_escapedBytes (text : List Char) : FailsLexically (escapedBytes text) := by
  fun_induction escapedBytes text with
  | case1 a b rest high low ha hb ih => exact .map ih
  | case2 => exact .malformed
  | case3 => exact .malformed
  | case4 => exact .ok _

theorem failsLexically_tagChars (fuel : Nat) (p : Cursor) : FailsLexically (tagChars fuel p) := by
  induction fuel generalizing p with
  | zero => exact .malformed
  | succ fuel ih =>
    unfold tagChars
    simp only
    split
    · refine .bind (failsLexically_escapedBytes _) fun _ => ?_
      split
      · exact .malformed
      · exact .map (ih _)
    · exact .ok _

theorem failsLexically_tagSuffix (p : Cursor) : FailsLexically (tagSuffix p) := by
  unfold tagSuffix
  split
  · exact .map (failsLexically_tagChars _ _)
  · exact .malformed

theorem failsLexically_tagHandle (p : Cursor) : FailsLexically (tagHandle p) := by
  unfold tagHandle
  split
  · exact .ok _
  · simp only
    split
    · exact .ok _
    · exact .malformed
  · exact .malformed

theorem failsLexically_tagAfterMark (start p : Cursor) :
    FailsLexically (tagAfterMark start p) := by
  unfold tagAfterMark
  split
  · refine .bind (failsLexically_tagSuffix _) fun _ => ?_
    simp only
    split
    · exact .ok _
    · exact .malformed
  · split
    · exact .ok _
    split
    · exact .bind (failsLexically_tagHandle _) fun _ => .map (failsLexically_tagSuffix _)
    · exact .map (failsLexically_tagSuffix _)

theorem failsLexically_tagName (p : Cursor) : FailsLexically (tagName p) :=
  .bind (failsLexically_tagAfterMark _ _) fun _ => .ite (.ok _) .malformed

theorem failsLexically_versionNumber (p : Cursor) : FailsLexically (versionNumber p) := by
  unfold versionNumber
  simp only
  split
  · exact .malformed
  split
  · rename_i hlong
    exact ⟨nofun, by rintro _ ⟨⟩; exact .version hlong⟩
  · exact .ok _

theorem failsLexically_version (p : Cursor) : FailsLexically (version p) := by
  refine .bind (failsLexically_versionNumber _) fun _ => ?_
  simp only
  split
  · exact .bind (failsLexically_versionNumber _) fun _ => .ite (.ok _) .malformed
  · exact .malformed

theorem failsLexically_handleDirective (p : Cursor) : FailsLexically (handleDirective p) := by
  refine .bind (failsLexically_tagHandle _) fun _ => ?_
  simp only
  split
  · exact .bind (failsLexically_tagSuffix _) fun _ => .ite (.ok _) .malformed
  · exact .malformed

theorem failsLexically_directive (p : Cursor) : FailsLexically (directive p) := by
  unfold directive
  simp only
  split
  · exact .malformed
  · have hend : ∀ {run : Except ReadError (Directive × Cursor)}, FailsLexically run →
        FailsLexically (run >>= fun read => read.2.endLine >>= fun p => pure (read.1, p)) :=
      fun h => .bind h fun _ => .map (failsLexically_endLine _)
    exact .ite (hend (failsLexically_version _))
      (.ite (hend (failsLexically_handleDirective _)) (hend (.ok _)))

/-! ### Tokens -/

/-- Whether a token stands for a fault. -/
def Token.isBad : Token → Bool
  | .bad _ => true
  | _ => false

namespace Scanner

/-- No token so far stands for a fault. -/
def IsSound (s : Scanner) : Prop := ∀ token ∈ s.tokens, token.isBad = false

variable {s : Scanner}

theorem IsSound.push (h : s.IsSound) {token : Token} (htoken : token.isBad = false) :
    (s.push token).IsSound :=
  List.forall_mem_cons.mpr ⟨htoken, h⟩

theorem IsSound.moveTo (h : s.IsSound) (p : Cursor) : (s.moveTo p).IsSound := h

theorem IsSound.allowKey (h : s.IsSound) (allowed : Bool) : (s.allowKey allowed).IsSound := h

theorem IsSound.take (h : s.IsSound) {token : Token} (htoken : token.isBad = false)
    (length : Nat) : (s.take length token).IsSound :=
  IsSound.push (s := s.moveTo _) h htoken

theorem IsSound.insert (h : s.IsSound) {token : Token} (htoken : token.isBad = false)
    (before : Nat) : (s.insert before token).IsSound := by
  intro other hother
  rcases List.mem_append.mp hother with hother | hother
  · exact h _ (List.mem_of_mem_take hother)
  rcases List.mem_cons.mp hother with rfl | hother
  · exact htoken
  · exact h _ (List.mem_of_mem_drop hother)

theorem IsSound.unwind (h : s.IsSound) (column : Int) : (s.unwind column).IsSound := by
  unfold Scanner.unwind
  split
  · exact h
  · intro token htoken
    rcases List.mem_append.mp htoken with htoken | htoken
    · obtain ⟨_, -, rfl⟩ := List.mem_map.mp htoken
      rfl
    · exact h _ htoken

theorem IsSound.openBlock (h : s.IsSound) {token : Token} (htoken : token.isBad = false) :
    (s.openBlock token).IsSound := by
  unfold Scanner.openBlock
  split
  · exact IsSound.push (s := s.enter _) h htoken
  · exact h

theorem IsSound.skipBlanks (h : s.IsSound) (fuel : Nat) : (s.skipBlanks fuel).IsSound := by
  induction fuel generalizing s with
  | zero => exact h
  | succ fuel ih =>
    unfold Scanner.skipBlanks
    simp only
    split
    · exact h
    · exact ih h

theorem ends_dropStale (h : s.IsSound) : Ends IsSound s.dropStale := by
  unfold dropStale
  simp only
  split
  · exact .malformed
  · exact .ok h

theorem ends_dropMark (h : s.IsSound) : Ends IsSound s.dropMark := by
  unfold dropMark
  simp only
  split
  · exact .malformed
  · exact .ok h

theorem ends_markKey (h : s.IsSound) : Ends IsSound s.markKey := by
  unfold markKey
  split
  · exact .map (ends_dropMark h) fun _ hcleared => hcleared
  · exact .ok h

theorem ends_endBlocks (h : s.IsSound) : Ends IsSound s.endBlocks :=
  .map (ends_dropMark (h.unwind _)) fun _ hdropped => hdropped.allowKey false

theorem ends_fetchDirective (h : s.IsSound) : Ends IsSound s.fetchDirective :=
  .bind (failsLexically_directive _) fun _ _ =>
    .map (ends_endBlocks h) fun _ hended => (hended.moveTo _).push rfl

theorem ends_fetchMarker (h : s.IsSound) {token : Token} (htoken : token.isBad = false) :
    Ends IsSound (s.fetchMarker token) :=
  .map (ends_endBlocks h) fun _ hended => hended.take htoken 3

theorem ends_fetchFlowStart (h : s.IsSound) {token : Token} (htoken : token.isBad = false) :
    Ends IsSound (s.fetchFlowStart token) :=
  .map (ends_markKey h) fun _ hmarked => IsSound.take hmarked htoken 1

theorem ends_fetchFlowEnd (h : s.IsSound) {token : Token} (htoken : token.isBad = false) :
    Ends IsSound (s.fetchFlowEnd token) :=
  .map (ends_dropMark h) fun _ hdropped => IsSound.take hdropped htoken 1

theorem ends_fetchFlowEntry (h : s.IsSound) : Ends IsSound s.fetchFlowEntry :=
  .map (ends_dropMark (h.allowKey true)) fun _ hdropped => hdropped.take rfl 1

theorem ends_fetchBlockEntry (h : s.IsSound) : Ends IsSound s.fetchBlockEntry := by
  unfold fetchBlockEntry
  split
  · exact .malformed
  · exact .map (ends_dropMark ((h.openBlock rfl).allowKey true)) fun _ hdropped =>
      hdropped.take rfl 1

theorem ends_fetchKey (h : s.IsSound) : Ends IsSound s.fetchKey := by
  unfold fetchKey
  split
  · exact .malformed
  · exact .map (ends_dropMark ((h.openBlock rfl).allowKey _)) fun _ hdropped =>
      hdropped.take rfl 1

theorem ends_fetchValue (h : s.IsSound) : Ends IsSound s.fetchValue := by
  unfold fetchValue
  split
  · refine .ok (IsSound.take (IsSound.allowKey ?_ false) rfl 1)
    split
    · exact IsSound.insert (IsSound.insert h rfl _) rfl _
    · exact IsSound.insert h rfl _
  · split
    · exact .malformed
    · exact .map (ends_dropMark ((h.openBlock rfl).allowKey _)) fun _ hdropped =>
        hdropped.take rfl 1

theorem ends_fetchMarked {α : Type} {read : Cursor → Except ReadError (α × Cursor)}
    {token : α → Token} (h : s.IsSound) (hread : ∀ p, FailsLexically (read p))
    (htoken : ∀ content, (token content).isBad = false) :
    Ends IsSound (s.fetchMarked read token) :=
  .bind (ends_markKey h) fun _ hmarked =>
    .map (hread _) fun read _ => IsSound.push hmarked (htoken read.1)

theorem ends_fetchBlockScalar (h : s.IsSound) (folded : Bool) :
    Ends IsSound (s.fetchBlockScalar folded) :=
  .bind (ends_dropMark (h.allowKey true)) fun _ hdropped =>
    .map (failsLexically_blockScalar _ _ _) fun _ _ => IsSound.push hdropped rfl

theorem ends_fetchPlain (h : s.IsSound) : Ends IsSound s.fetchPlain :=
  .map (ends_markKey h) fun _ hmarked => IsSound.push hmarked rfl

theorem ends_fetchAt (h : s.IsSound) (c : Char) (rest : List Char) :
    Ends IsSound (s.fetchAt c rest) := by
  unfold fetchAt
  refine .ite (ends_fetchDirective h) ?_
  refine .ite (ends_fetchMarker h rfl) ?_
  refine .ite (ends_fetchMarker h rfl) ?_
  refine .ite (ends_fetchFlowStart h rfl) ?_
  refine .ite (ends_fetchFlowStart h rfl) ?_
  refine .ite (ends_fetchFlowEnd h rfl) ?_
  refine .ite (ends_fetchFlowEnd h rfl) ?_
  refine .ite (ends_fetchFlowEntry h) ?_
  refine .ite (ends_fetchBlockEntry h) ?_
  refine .ite (ends_fetchKey h) ?_
  refine .ite (ends_fetchValue h) ?_
  refine .ite (ends_fetchMarked h failsLexically_anchorName fun _ => rfl) ?_
  refine .ite (ends_fetchMarked h failsLexically_anchorName fun _ => rfl) ?_
  refine .ite (ends_fetchMarked h failsLexically_tagName fun _ => rfl) ?_
  refine .ite (ends_fetchBlockScalar h false) ?_
  refine .ite (ends_fetchBlockScalar h true) ?_
  refine .ite (ends_fetchMarked h failsLexically_quotedScalar fun _ => rfl) ?_
  refine .ite (ends_fetchPlain h) ?_
  exact .malformed

/-- Passing a token either adds sound ones or fails for something lexical. -/
theorem ends_step (h : s.IsSound) : Ends (fun next => next.1.IsSound) s.step := by
  refine .bind (ends_dropStale (h.skipBlanks _)) fun t ht => ?_
  simp only
  split
  · exact .map (ends_endBlocks (ht.unwind _)) fun _ hended => hended
  · exact .map (ends_fetchAt (ht.unwind _) _ _) fun _ hfetched => hfetched

theorem isLexical_of_mem_stopped (h : s.IsSound) {number : Nat} {error found : ReadError}
    (herror : error.IsLexical) (hmem : .bad found ∈ s.stopped number error) : found.IsLexical := by
  rcases List.mem_append.mp hmem with hmem | hmem
  · exact absurd (h _ (List.mem_of_mem_drop (List.mem_reverse.mp hmem))) Bool.noConfusion
  · obtain rfl : found = error := by simpa using hmem
    exact herror

theorem isLexical_of_mem_run {fuel given : Nat} (h : s.IsSound) {error : ReadError}
    (hmem : .bad error ∈ run fuel given s) : error.IsLexical := by
  have hsound : ∀ {t : Scanner}, t.IsSound → .bad error ∉ t.tokens.reverse := fun ht hbad =>
    absurd (ht _ (List.mem_reverse.mp hbad)) Bool.noConfusion
  induction fuel generalizing given s with
  | zero => exact absurd hmem (hsound h)
  | succ fuel ih =>
    unfold run at hmem
    split at hmem
    · rename_i hstale
      exact isLexical_of_mem_stopped h ((ends_dropStale h).2 _ hstale) hmem
    · rename_i t hstale
      have ht := (ends_dropStale h).1 _ hstale
      split at hmem
      · rename_i hstep
        exact isLexical_of_mem_stopped ht ((ends_step ht).2 _ hstep) hmem
      · rename_i hstep
        exact ih ((ends_step ht).1 _ hstep) hmem
      · rename_i hstep
        exact absurd hmem (hsound ((ends_step ht).1 _ hstep))

end Scanner

/-- What a text is not cut into tokens for is lexical. -/
theorem isLexical_of_bad_mem {text : List Char} {error : ReadError}
    (h : .bad error ∈ Token.ofText text) : error.IsLexical := by
  unfold Token.ofText at h
  split at h
  · exact Scanner.isLexical_of_mem_run (fun _ hmem => absurd hmem List.not_mem_nil) h
  · obtain rfl : error = .malformed := by simpa using h
    exact .malformed

end Stanza.Yaml
