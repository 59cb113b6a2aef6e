import Stanza.Block.Compile
import Stanza.Proofs.Layout.Shape

/-!
Two runs that end alike.

Everything that is read, checked or rendered is told where it stands by a path, and in which style
it is to be laid out. Neither decides how the run ends: two runs on the same value, one below a path
`here` and one below a path `there`, in two styles that check raw expressions alike, both succeed,
or both fail with the same cause at the same place below `here` and `there`. `Alike` is this
relation; it passes through steps in a row (`Alike.bind`), so there is one lemma for each function,
up to `Block.alike_lines` and `Document.alike_compile`.

* `Alike.error_iff`: below one path, two runs fail with the same faults.
* `Alike.exists_ok`: where one of two runs succeeds, the other does.
* `Alike.of_ofCause`: what fails by itself fails in the same way below a path.
-/

namespace Stanza

/-- Two paths go on alike below `here` and `there`. -/
def Along (here there p q : Path) : Prop := ∃ keys, p = here ++ keys ∧ q = there ++ keys

/-- Two runs below `here` and `there` end alike: both succeed, with results of which `same` holds,
or both fail with the same cause at the same place. -/
inductive Alike {α β : Type} (here there : Path) (same : α → β → Prop) :
    Except Fault α → Except Fault β → Prop where
  | ok {a : α} {b : β} : same a b → Alike here there same (.ok a) (.ok b)
  | fail (cause : Cause) {p q : Path} : Along here there p q →
      Alike here there same (fail cause p) (fail cause q)

/-- Two results are equal where the runs are tied to each other. -/
def Tied {α : Type} (tied : Prop) (a b : α) : Prop := tied → a = b

variable {here there p q : Path}

theorem Along.refl (here there : Path) : Along here there here there := ⟨[], by simp, by simp⟩

theorem Along.concat (h : Along here there p q) (key : Value) :
    Along here there (p ++ [key]) (q ++ [key]) := by
  obtain ⟨keys, rfl, rfl⟩ := h
  exact ⟨keys ++ [key], by simp, by simp⟩

/-! ### Raising a fault -/

theorem fail_bind {α β : Type} (cause : Cause) (path : Path) (f : α → Except Fault β) :
    (fail cause path >>= f) = fail cause path := by
  unfold fail
  split <;> rfl

/-- What is raised with a cause and a path has that cause and that path. -/
theorem fail_eq_compile {α : Type} {cause : Cause} {path : Path} {e : CompileError}
    (h : (fail cause path : Except Fault α) = .error (.compile e)) :
    e = ⟨cause, path⟩ ∧ Value.areWritable cause.quotes ∧ Value.areWritable path := by
  unfold fail at h
  split at h
  · rename_i hwritable
    obtain ⟨hquotes, hpath⟩ := Bool.and_eq_true_iff.mp hwritable
    exact ⟨by simpa using h.symm, hquotes, hpath⟩
  · simp at h

/-- Whatever would have been the result, the same fault is raised. -/
theorem fail_eq_error (α β : Type) (cause : Cause) (path : Path) :
    ∃ fault, (fail cause path : Except Fault α) = .error fault ∧
      (fail cause path : Except Fault β) = .error fault := by
  unfold fail
  split
  · exact ⟨_, rfl, rfl⟩
  · exact ⟨_, rfl, rfl⟩

theorem areWritable_append (p keys : Path) :
    Value.areWritable (p ++ keys) = (Value.areWritable p && Value.areWritable keys) := by
  induction p with
  | nil => rfl
  | cons key p ih =>
    rw [List.cons_append, Value.areWritable, Value.areWritable, ih, Bool.and_assoc]

/-- The fault that is raised with a cause at a path: a compile error, unless an integer without a
text would have to be quoted or stands on the path. -/
def Fault.ofCause (cause : Cause) (path : Path) : Fault :=
  if Value.areWritable cause.quotes && Value.areWritable path then .compile ⟨cause, path⟩
  else .unwritable

theorem fail_eq {α : Type} (cause : Cause) (path : Path) :
    (fail cause path : Except Fault α) = .error (.ofCause cause path) := by
  unfold fail Fault.ofCause
  split <;> rfl

/-- Only what a compile error says raises it. -/
theorem Fault.eq_of_ofCause_eq_compile {cause : Cause} {path : Path} {e : CompileError}
    (h : Fault.ofCause cause path = .compile e) :
    e = ⟨cause, path⟩ ∧ Value.areWritable cause.quotes ∧ Value.areWritable path :=
  fail_eq_compile (α := Unit) ((fail_eq cause path).trans (congrArg _ h))

/-- Faults that are the same at two paths are the same further in, below any keys. -/
theorem Fault.ofCause_append_congr {cause other : Cause} {p q : Path} (keys : Path)
    (h : Fault.ofCause cause p = .ofCause other q) :
    Fault.ofCause cause (keys ++ p) = .ofCause other (keys ++ q) := by
  cases hother : Value.areWritable other.quotes && Value.areWritable q with
  | true =>
    have hcompile : Fault.ofCause cause p = .compile ⟨other, q⟩ := by
      rw [h, Fault.ofCause, hother]
      rfl
    obtain ⟨heq, -⟩ := Fault.eq_of_ofCause_eq_compile hcompile
    obtain ⟨rfl, rfl⟩ := CompileError.mk.inj heq
    rfl
  | false =>
    have hcause : (Value.areWritable cause.quotes && Value.areWritable p) = false := by
      simpa [Fault.ofCause, hother] using h
    have hunwritable : ∀ (cause : Cause) (p : Path),
        (Value.areWritable cause.quotes && Value.areWritable p) = false →
          Fault.ofCause cause (keys ++ p) = .unwritable := by
      intro cause p hfalse
      rw [Fault.ofCause, areWritable_append, Bool.and_left_comm, hfalse, Bool.and_false]
      rfl
    rw [hunwritable cause p hcause, hunwritable other q hother]

/-! ### The relation -/

namespace Alike

variable {α β γ δ : Type} {same : α → β → Prop} {next : γ → δ → Prop}
  {x : Except Fault α} {y : Except Fault β}

theorem pure {a : α} {b : β} (h : same a b) :
    Alike here there same (Pure.pure a : Except Fault α) (Pure.pure b : Except Fault β) := .ok h

/-- Steps in a row end alike when each of them does. -/
theorem bind {f : α → Except Fault γ} {g : β → Except Fault δ} (h : Alike here there same x y)
    (hnext : ∀ a b, same a b → Alike here there next (f a) (g b)) :
    Alike here there next (x >>= f) (y >>= g) := by
  cases h with
  | ok hsame => exact hnext _ _ hsame
  | fail cause hpaths =>
    rw [fail_bind, fail_bind]
    exact .fail cause hpaths

/-- Below one path, two runs fail with the same faults. -/
theorem error_iff (h : Alike here here same x y) (fault : Fault) :
    x = .error fault ↔ y = .error fault := by
  cases h with
  | ok => simp
  | fail cause hpaths =>
    obtain ⟨keys, rfl, rfl⟩ := hpaths
    obtain ⟨raised, hx, hy⟩ := fail_eq_error α β cause (here ++ keys)
    rw [hx, hy, Except.error.injEq, Except.error.injEq]

/-- Where one of two runs succeeds, the other does. -/
theorem exists_ok (h : Alike here there same x y) {a : α} (hx : x = .ok a) :
    ∃ b, y = .ok b ∧ same a b := by
  cases h with
  | ok hsame =>
    cases hx
    exact ⟨_, rfl, hsame⟩
  | fail => exact absurd hx fail_ne_ok

/-- Where one of two runs fails, the other does. -/
theorem exists_error (h : Alike here there same x y) {fault : Fault} (hx : x = .error fault) :
    ∃ other, y = .error other := by
  cases h with
  | ok => cases hx
  | fail cause hpaths => exact ⟨_, fail_eq cause _⟩

/-- What fails by itself fails in the same way below a path. -/
theorem of_ofCause (h : Alike here [] same x y) {cause : Cause} {keys : Path}
    (hy : y = .error (.ofCause cause keys)) : x = .error (.ofCause cause (here ++ keys)) := by
  cases h with
  | ok => cases hy
  | fail raised hpaths =>
    obtain ⟨rest, rfl, rfl⟩ := hpaths
    rw [fail_eq] at hy
    rw [fail_eq, Fault.ofCause_append_congr here (Except.error.inj hy)]

end Alike

/-! ### Values read as nodes -/

section Nodes

theorem Marker.alike_reference? (h : Along here there p q) (payload : Value) :
    Alike here there Eq (Marker.reference? p payload) (Marker.reference? q payload) := by
  unfold Marker.reference?
  split
  · exact .ok rfl
  · exact .fail _ h

theorem Marker.alike_raw? (h : Along here there p q) (payload : Value) :
    Alike here there Eq (Marker.raw? p payload) (Marker.raw? q payload) := by
  unfold Marker.raw?
  split
  · exact .ok rfl
  · exact .fail _ h

namespace Value

mutual

theorem alike_markerSegments {p q : Path} (h : Along here there p q) (v : Value) :
    Alike here there Eq (v.markerSegments p) (v.markerSegments q) := by
  match v with
  | .list items | .tuple items => exact alike_segmentItems h 0 items
  | .null | .bool _ | .int _ | .float _ | .text _ | .bytes _ | .buffer _ | .mapping _ | .set _
  | .date _ | .moment _ | .foreign _ | .reference _ | .raw _ | .template _ | .literal _
  | .sequence _ | .object _ | .block .. => exact .fail _ h
termination_by structural v

theorem alike_segmentItems {p q : Path} (h : Along here there p q) (index : Nat)
    (items : List Value) :
    Alike here there Eq (segmentItems p index items) (segmentItems q index items) := by
  match items with
  | [] => exact .ok rfl
  | item :: rest =>
    rw [segmentItems, segmentItems]
    refine (alike_toSegment (h.concat _) item).bind ?_
    rintro segment _ rfl
    refine (alike_segmentItems h (index + 1) rest).bind ?_
    rintro more _ rfl
    exact .pure rfl
termination_by structural items

/-- Items of a template marker become the same segments, or fail alike. -/
theorem alike_toSegment {p q : Path} (h : Along here there p q) (v : Value) :
    Alike here there Eq (v.toSegment p) (v.toSegment q) := by
  match v with
  | .text _ | .reference _ => exact .ok rfl
  | .mapping [(key, payload)] =>
    cases key
    case text key =>
      rw [toSegment, toSegment]
      split
      · exact Marker.alike_reference? h payload
      · exact (Marker.alike_raw? h payload).bind fun _ _ _ => .fail _ h
      · exact (alike_markerSegments h payload).bind fun _ _ _ => .fail _ h
      · exact .fail _ h
    all_goals exact .fail _ h
  | .mapping (_ :: _ :: _) =>
    rw [toSegment, toSegment]
    · exact .fail _ h
    all_goals simp
  | .null | .bool _ | .int _ | .float _ | .bytes _ | .buffer _ | .list _ | .tuple _
  | .mapping [] | .set _ | .date _ | .moment _ | .foreign _ | .raw _
  | .template _ | .literal _ | .sequence _ | .object _ | .block .. => exact .fail _ h
termination_by structural v

end

theorem Marker.alike_toNode (h : Along here there p q) (payload : Value) (marker : Marker) :
    Alike here there Eq (marker.toNode p payload) (marker.toNode q payload) := by
  cases marker with
  | reference => exact Marker.alike_reference? h payload
  | raw => exact Marker.alike_raw? h payload
  | template =>
    refine (alike_markerSegments h payload).bind ?_
    rintro segments _ rfl
    exact .pure rfl

mutual

/-- A value becomes the same node, or fails alike. -/
theorem alike_toNode {p q : Path} (h : Along here there p q) (v : Value) :
    Alike here there Eq (v.toNode p) (v.toNode q) := by
  match v with
  | .null | .bool _ | .int _ | .text _ | .reference _ | .raw _ | .template _ | .literal _
  | .sequence _ | .object _ => exact .ok rfl
  | .float x =>
    rw [toNode, toNode]
    split
    · exact .ok rfl
    · exact .fail _ h
  | .list items | .tuple items =>
    refine (alike_toNodes h 0 items).bind ?_
    rintro nodes _ rfl
    exact .pure rfl
  | .mapping entries =>
    rw [toNode, toNode]
    split
    · exact Marker.alike_toNode h _ _
    · refine (alike_entriesToNodes h entries).bind ?_
      rintro nodes _ rfl
      exact .pure rfl
  | .bytes _ | .buffer _ | .set _ | .date _ | .moment _ | .foreign _ | .block .. =>
    exact .fail _ h
termination_by structural v

theorem alike_toNodes {p q : Path} (h : Along here there p q) (index : Nat) (items : List Value) :
    Alike here there Eq (toNodes p index items) (toNodes q index items) := by
  match items with
  | [] => exact .ok rfl
  | item :: rest =>
    rw [toNodes, toNodes]
    refine (alike_toNode (h.concat _) item).bind ?_
    rintro node _ rfl
    refine (alike_toNodes h (index + 1) rest).bind ?_
    rintro more _ rfl
    exact .pure rfl
termination_by structural items

theorem alike_entriesToNodes {p q : Path} (h : Along here there p q)
    (entries : List (Value × Value)) :
    Alike here there Eq (entriesToNodes p entries) (entriesToNodes q entries) := by
  match entries with
  | [] => exact .ok rfl
  | (key, value) :: rest =>
    rw [entriesToNodes, entriesToNodes]
    refine (alike_toNode (h.concat _) value).bind ?_
    rintro node _ rfl
    refine (alike_entriesToNodes h rest).bind ?_
    rintro more _ rfl
    exact .pure rfl
termination_by structural entries

end

end Value

end Nodes

/-! ### Leaves and keys -/

section Leaves

theorem alike_referenceText (h : Along here there p q) (name : Value) :
    Alike here there Eq (referenceText p name) (referenceText q name) := by
  unfold referenceText
  split
  · exact .ok rfl
  · exact .fail _ h

theorem Expression.alike_checkText (h : Along here there p q) (s : String) :
    Alike here there Eq (Expression.checkText s p) (Expression.checkText s q) := by
  unfold Expression.checkText
  split
  · exact .ok rfl
  · exact .fail _ h

theorem alike_rawText {s t : Style} (hvalidate : s.validate = t.validate)
    (h : Along here there p q) (expression : Value) :
    Alike here there Eq (rawText s p expression) (rawText t q expression) := by
  unfold rawText
  split
  · rw [hvalidate]
    split
    · refine (Expression.alike_checkText h _).bind ?_
      rintro checked _ rfl
      exact .pure rfl
    · exact .ok rfl
  · exact .fail _ h

theorem Template.alike_segmentsText (h : Along here there p q) (segments : List Value) :
    Alike here there Eq (segmentsText p segments) (segmentsText q segments) := by
  induction segments with
  | nil => exact .ok rfl
  | cons segment rest ih =>
    unfold segmentsText
    split
    · exact .ok rfl
    · rename_i heq
      obtain ⟨rfl, rfl⟩ := List.cons.inj heq
      refine ih.bind ?_
      rintro more _ rfl
      exact .pure rfl
    · rename_i heq
      obtain ⟨rfl, rfl⟩ := List.cons.inj heq
      refine (alike_referenceText h _).bind ?_
      rintro reference _ rfl
      refine ih.bind ?_
      rintro more _ rfl
      exact .pure rfl
    · exact .fail _ h

theorem Template.alike_text (h : Along here there p q) (segments : List Value) :
    Alike here there Eq (Template.text p segments) (Template.text q segments) := by
  refine (alike_segmentsText h segments).bind ?_
  rintro inside _ rfl
  exact .pure rfl

theorem alike_scalarText (h : Along here there p q) (v : Value) :
    Alike here there Eq (scalarText p v) (scalarText q v) := by
  unfold scalarText
  split
  · exact .ok rfl
  · exact .ok rfl
  · split
    · exact .ok rfl
    · exact .fail _ h
  · split
    · exact .ok rfl
    · exact .fail _ h
  · exact .ok rfl
  · exact .fail _ h

theorem alike_markerText {s t : Style} (hvalidate : s.validate = t.validate)
    (h : Along here there p q) (payload : Value) (marker : Marker) :
    Alike here there Eq (markerText s p payload marker) (markerText t q payload marker) := by
  cases marker with
  | reference =>
    exact (Marker.alike_reference? h payload).bind fun _ _ _ => alike_referenceText h payload
  | raw => exact (Marker.alike_raw? h payload).bind fun _ _ _ => alike_rawText hvalidate h payload
  | template =>
    refine (Value.alike_markerSegments h payload).bind ?_
    rintro segments _ rfl
    exact Template.alike_text h _

theorem alike_objectKeyTexts (h : Along here there p q) (entries : Entries) :
    Alike here there Eq (objectKeyTexts p entries) (objectKeyTexts q entries) := by
  induction entries with
  | nil => exact .ok rfl
  | cons entry rest ih =>
    have hkey : Alike here there Eq (objectKeyText p entry.1) (objectKeyText q entry.1) := by
      unfold objectKeyText
      split
      · exact .ok rfl
      · exact .fail _ (h.concat _)
    refine hkey.bind ?_
    rintro key _ rfl
    refine ih.bind ?_
    rintro more _ rfl
    exact .pure rfl

end Leaves

/-! ### Values rendered -/

section Rendering

variable {s t : Style} {tied : Prop}

namespace Value

mutual

/-- **Rendering ends alike.** In two styles that check raw expressions alike, and wherever it
stands, a value is rendered or fails with the same cause at the same place below. Where the two
styles are the same, so is what is rendered. -/
theorem alike_render {p q : Path} (hvalidate : s.validate = t.validate) (hstyle : Tied tied s t)
    (h : Along here there p q) (v : Value) :
    Alike here there (Tied tied) (v.render s p) (v.render t q) := by
  match v with
  | .list items | .tuple items | .sequence items =>
    refine (alike_toNodes h 0 items).bind fun _ _ _ =>
      (alike_renderItems hvalidate hstyle h 0 items).bind ?_
    intro rs others hitems
    exact .pure fun htied => by rw [hstyle htied, hitems htied]
  | .object entries =>
    refine (alike_objectKeyTexts h entries).bind ?_
    rintro keys _ rfl
    refine (alike_renderEntries hvalidate hstyle h keys entries).bind ?_
    intro assignments others hentries
    exact .pure fun htied => by rw [hstyle htied, hentries htied]
  | .mapping entries =>
    rw [render, render]
    split
    · refine (alike_markerText hvalidate h _ _).bind ?_
      rintro text _ rfl
      exact .pure fun _ => rfl
    · refine (alike_objectKeyTexts h entries).bind ?_
      rintro keys _ rfl
      refine (alike_renderEntries hvalidate hstyle h keys entries).bind ?_
      intro assignments others hentries
      exact .pure fun htied => by rw [hstyle htied, hentries htied]
  | .reference name =>
    refine (alike_referenceText h name).bind ?_
    rintro text _ rfl
    exact .pure fun _ => rfl
  | .raw expression =>
    refine (alike_rawText hvalidate h expression).bind ?_
    rintro text _ rfl
    exact .pure fun _ => rfl
  | .template segments =>
    refine (Template.alike_text h segments).bind ?_
    rintro text _ rfl
    exact .pure fun _ => rfl
  | .literal _ | .null | .bool _ | .int _ | .float _ | .text _ | .bytes _ | .buffer _ | .set _
  | .date _ | .moment _ | .foreign _ | .block .. =>
    refine (alike_scalarText h _).bind ?_
    rintro text _ rfl
    exact .pure fun _ => rfl
termination_by structural v

theorem alike_renderItems {p q : Path} (hvalidate : s.validate = t.validate)
    (hstyle : Tied tied s t) (h : Along here there p q) (index : Nat) (items : List Value) :
    Alike here there (Tied tied) (renderItems s p index items) (renderItems t q index items) := by
  match items with
  | [] => exact .ok fun _ => rfl
  | item :: rest =>
    rw [renderItems, renderItems]
    refine (alike_render hvalidate hstyle (h.concat _) item).bind fun r r' hr =>
      (alike_renderItems hvalidate hstyle h (index + 1) rest).bind fun rs rs' hrs => ?_
    exact .pure fun htied => by rw [hr htied, hrs htied]
termination_by structural items

theorem alike_renderEntries {p q : Path} (hvalidate : s.validate = t.validate)
    (hstyle : Tied tied s t) (h : Along here there p q) (keys : List (List Char))
    (entries : List (Value × Value)) :
    Alike here there (Tied tied) (renderEntries s p keys entries)
      (renderEntries t q keys entries) := by
  match entries with
  | [] => exact .ok fun _ => rfl
  | (key, value) :: rest =>
    rw [renderEntries, renderEntries]
    refine (alike_toNode (h.concat _) value).bind fun _ _ _ =>
      (alike_render hvalidate hstyle (h.concat _) value).bind fun r r' hr =>
      (alike_renderEntries hvalidate hstyle h keys.tail rest).bind fun more more' hmore => ?_
    exact .pure fun htied => by rw [hr htied, hmore htied]
termination_by structural entries

end

/-- A value read as a node and rendered ends alike. -/
theorem alike_encode (hvalidate : s.validate = t.validate) (hstyle : Tied tied s t)
    (h : Along here there p q) (v : Value) :
    Alike here there (Tied tied) (v.encode s p) (v.encode t q) :=
  (alike_toNode h v).bind fun _ _ _ => alike_render hvalidate hstyle h v

end Value

end Rendering

/-! ### Blocks -/

section Blocks

variable {s t : Style} {tied : Prop}

theorem Attributes.alike_nameTexts (h : Along here there p q) (entries : Entries) :
    Alike here there Eq (nameTexts p entries) (nameTexts q entries) := by
  induction entries with
  | nil => exact .ok rfl
  | cons entry rest ih =>
    have hname : Alike here there Eq (nameText p entry.1) (nameText q entry.1) := by
      unfold nameText
      split
      · split
        · exact .ok rfl
        · exact .fail _ (h.concat _)
      · exact .fail _ (h.concat _)
    refine hname.bind ?_
    rintro name _ rfl
    refine ih.bind ?_
    rintro more _ rfl
    exact .pure rfl

theorem Attributes.alike_ofEntries (hvalidate : s.validate = t.validate) (hstyle : Tied tied s t)
    (h : Along here there p q) (entries : Entries) :
    Alike here there (Tied tied) (ofEntries s p entries) (ofEntries t q entries) := by
  refine (alike_nameTexts h entries).bind ?_
  rintro names _ rfl
  refine (Value.alike_renderEntries hvalidate hstyle h names entries).bind ?_
  intro assignments others hassignments
  exact .pure fun htied => by rw [hstyle htied, hassignments htied]

namespace Block

theorem alike_partTexts (h : Along here there p q) (all : List Value) (index : Nat)
    (parts : List Value) :
    Alike here there Eq (partTexts p all index parts) (partTexts q all index parts) := by
  induction parts generalizing index with
  | nil => exact .ok rfl
  | cons part rest ih =>
    rw [partTexts, partTexts]
    split
    · refine (ih (index + 1)).bind ?_
      rintro more _ rfl
      exact .pure rfl
    · exact .fail _ h

theorem alike_headerOfParts (h : Along here there p q) (texts : List String) :
    Alike here there Eq (headerOfParts p texts) (headerOfParts q texts) := by
  unfold headerOfParts
  split
  · exact .fail _ h
  · split
    · exact .ok rfl
    · exact .fail _ h

theorem alike_header (h : Along here there p q) (blockPath : Value) :
    Alike here there Eq (header p blockPath) (header q blockPath) := by
  have hparts : ∀ parts : List Value, Alike here there Eq
      (do return (← headerOfParts p (← partTexts p parts 0 parts), dotted parts))
      (do return (← headerOfParts q (← partTexts q parts 0 parts), dotted parts)) := by
    intro parts
    refine (alike_partTexts h parts 0 parts).bind ?_
    rintro texts _ rfl
    refine (alike_headerOfParts h texts).bind ?_
    rintro header _ rfl
    exact .pure rfl
  unfold header
  split
  · exact hparts _
  · exact hparts _
  · exact .fail _ h

theorem alike_attributeEntries (h : Along here there p q) (attributes : Value) :
    Alike here there Eq (attributeEntries p attributes) (attributeEntries q attributes) := by
  unfold attributeEntries
  split
  · exact .ok rfl
  · exact .ok rfl
  · exact .fail _ h

theorem alike_checkChildren (h : Along here there p q) (children : Value) :
    Alike here there Eq (checkChildren p children) (checkChildren q children) := by
  unfold checkChildren
  split
  · exact .ok rfl
  · exact .fail _ h

theorem alike_noBlocks (h : Along here there p q) (items : List Value) :
    Alike here there (Tied tied) (noBlocks p items) (noBlocks q items) := by
  cases items with
  | nil => exact .ok fun _ => rfl
  | cons item rest => exact .fail _ h

mutual

/-- **Compiling ends alike.** In two styles that check raw expressions alike, and wherever it
stands, a block has lines or fails with the same cause at the same place below. Where the two styles
are the same, so are the lines. -/
theorem alike_lines {p q : Path} (hvalidate : s.validate = t.validate) (hstyle : Tied tied s t)
    (h : Along here there p q) (node : Value) :
    Alike here there (Tied tied) (lines s p node) (lines t q node) := by
  match node with
  | .block blockPath attributes children =>
    rw [lines, lines]
    refine (alike_header h blockPath).bind ?_
    rintro ⟨header, address⟩ _ rfl
    have h := h.concat (.text address)
    refine (alike_attributeEntries h attributes).bind ?_
    rintro entries _ rfl
    refine (alike_checkChildren h children).bind fun _ _ _ =>
      (Attributes.alike_ofEntries hvalidate hstyle h entries).bind fun rs rs' hrs => ?_
    have hfollows : Tied tied (!(rs.flatMap Rendered.lines).isEmpty)
        (!(rs'.flatMap Rendered.lines).isEmpty) := fun htied => by rw [hrs htied]
    refine (alike_childLines hvalidate hstyle h hfollows children).bind fun ls ls' hls => ?_
    exact .pure fun htied => by rw [hrs htied, hls htied]
  | .null | .bool _ | .int _ | .float _ | .text _ | .bytes _ | .buffer _ | .list _ | .tuple _
  | .mapping _ | .set _ | .date _ | .moment _ | .foreign _ | .reference _ | .raw _ | .template _
  | .literal _ | .sequence _ | .object _ => exact .fail _ h
termination_by sizeOf node

theorem alike_childLines {p q : Path} (hvalidate : s.validate = t.validate)
    (hstyle : Tied tied s t) (h : Along here there p q) {follows other : Bool}
    (hfollows : Tied tied follows other) (children : Value) :
    Alike here there (Tied tied) (childLines s p follows children)
      (childLines t q other children) := by
  match children with
  | .list items | .tuple items | .set items =>
    exact alike_itemLines hvalidate hstyle h hfollows items
  | .buffer _ | .foreign _ => exact alike_noBlocks h _
  | .null | .bool _ | .int _ | .float _ | .text _ | .bytes _ | .mapping _ | .date _ | .moment _
  | .reference _ | .raw _ | .template _ | .literal _ | .sequence _ | .object _ | .block .. =>
    exact .ok fun _ => rfl
termination_by sizeOf children

theorem alike_itemLines {p q : Path} (hvalidate : s.validate = t.validate)
    (hstyle : Tied tied s t) (h : Along here there p q) {follows other : Bool}
    (hfollows : Tied tied follows other) (items : List Value) :
    Alike here there (Tied tied) (itemLines s p follows items) (itemLines t q other items) := by
  match items with
  | [] => exact .ok fun _ => rfl
  | item :: rest =>
    rw [itemLines, itemLines]
    refine (alike_lines hvalidate hstyle h item).bind fun ls ls' hls =>
      (alike_itemLines hvalidate hstyle h (fun _ => rfl) rest).bind fun more more' hmore => ?_
    exact .pure fun htied => by rw [hstyle htied, hfollows htied, hls htied, hmore htied]
termination_by sizeOf items

end

end Block

namespace Document

theorem alike_blockTexts {f g : Format} (hvalidate : f.validate = g.validate)
    (nodes : List Value) :
    Alike [] [] (Tied False) (blockTexts f nodes) (blockTexts g nodes) := by
  induction nodes with
  | nil => exact .ok fun _ => rfl
  | cons node rest ih =>
    have hnode : Alike [] [] (Tied False) (Block.compile f 0 node) (Block.compile g 0 node) :=
      (Block.alike_lines hvalidate False.elim (.refl [] []) node).bind fun _ _ _ =>
        .pure False.elim
    exact hnode.bind fun _ _ _ => ih.bind fun _ _ _ => .pure False.elim

/-- Documents in two formats that check raw expressions alike are both compiled, or fail with the
same fault. -/
theorem alike_compile {f g : Format} (hvalidate : f.validate = g.validate) (nodes : List Value) :
    Alike [] [] (Tied False) (compile f nodes) (compile g nodes) :=
  (alike_blockTexts hvalidate nodes).bind fun _ _ _ => .pure False.elim

end Document

end Blocks

end Stanza
