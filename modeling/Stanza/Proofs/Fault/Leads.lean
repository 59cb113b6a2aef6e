import Stanza.Proofs.Fault.Alike

/-!
Ways down a value to what is at fault.

Keys and indices lead down a value, `Value.Leads`; the items of a template marker count as those of
the value. What is at fault, `Value.IsAtFault`, is a value that fails by itself, an object with a
key that is no name, or a template marker with an item that is no segment. The path of the error of
a value leads down to such a thing (`Value.exists_leads_of_encode`).

The step is `Value.encode_eq_error`: what fails is at fault itself, or one of its parts fails below
its key. That the part fails in the same way by itself is `Value.alike_encode`. Both are about every
fault that a cause and a path make (`Fault.ofCause`), so about those too that cannot be told because
an integer on the path has no text.
-/

namespace Stanza

/-! ### Ways down a value -/

namespace Value

/-- Items, each by its index, counted on from an index. -/
def numbered (index : Nat) : List Value → Entries
  | [] => []
  | item :: rest => (.int index, item) :: numbered (index + 1) rest

/-- What a value is made of, each part by its key or index. A template marker is made of the items
it lists, the other markers of nothing. -/
def parts : Value → Entries
  | .list items | .tuple items | .sequence items => numbered 0 items
  | .mapping entries =>
      match Marker.ofEntries? entries with
      | none => entries
      | some (.template, .list items) | some (.template, .tuple items) => numbered 0 items
      | some _ => []
  | .object entries => entries
  | _ => []

/-- Keys and indices that lead from a value to a part of a part of it, at any depth. -/
inductive Leads : Value → Path → Value → Prop where
  | here (v : Value) : Leads v [] v
  | part {v child w key : Value} {keys : Path} :
      (key, child) ∈ v.parts → Leads child keys w → Leads v (key :: keys) w

/-- The entries of a value that has keys. -/
def entries? : Value → Option Entries
  | .mapping entries | .object entries => some entries
  | _ => none

/-- Whether an item of a template marker is a text, a reference or the marker of one. -/
def isSegment : Value → Bool
  | .text _ | .reference _ => true
  | .mapping entries =>
      match Marker.ofEntries? entries with
      | some (.reference, payload) => payload.nonEmptyText?.isSome
      | _ => false
  | _ => false

end Value

/-- Whether a cause is one of a value, and not of a block or a key. -/
def Cause.IsOfValue (cause : Cause) : Prop :=
  cause.kind? = some .valueKind ∨ cause.kind? = some .expression

/-- A value is at fault, and the last step of the path to the fault, if it takes one from the value:
the offending key, or the index of the offending item. -/
inductive Value.IsAtFault (style : Style) (cause : Cause) : Value → Path → Prop where
  /-- The value fails by itself. -/
  | value {v : Value} : cause.IsOfValue → v.encode style [] = .error (.compile ⟨cause, []⟩) →
      IsAtFault style cause v []
  /-- A key of the value is no name. -/
  | key {v key value : Value} {entries : Entries} : cause.kind? = some .attributeName →
      v.entries? = some entries → (key, value) ∈ entries → ¬ key.IsName →
      IsAtFault style cause v [key]
  /-- An item of a template marker is no segment. -/
  | segment {payload key item : Value} : cause.IsOfValue →
      (key, item) ∈ (Value.mapping [(.text Marker.template.name, payload)]).parts →
      item.isSegment = false →
      IsAtFault style cause (.mapping [(.text Marker.template.name, payload)]) [key]

/-! ### Runs that fail -/

/-- The wording for what is wrong with a value quotes no value. -/
theorem Cause.IsOfValue.quotes_eq_nil {cause : Cause} (h : cause.IsOfValue) : cause.quotes = [] := by
  cases cause <;> simp_all [IsOfValue, kind?, quotes]

theorem Cause.IsOfValue.ofCause_nil {cause : Cause} (h : cause.IsOfValue) :
    Fault.ofCause cause [] = .compile ⟨cause, []⟩ := by
  rw [Fault.ofCause, h.quotes_eq_nil]
  rfl

/-- A run that fails, if it does, at its own path and because of the value there. -/
def FailsAt {α : Type} (path : Path) (run : Except Fault α) : Prop :=
  ∀ fault, run = .error fault → ∃ cause : Cause, cause.IsOfValue ∧ fault = .ofCause cause path

namespace FailsAt

variable {α β : Type} {path : Path} {run : Except Fault α}

theorem ok (a : α) : FailsAt path (.ok a : Except Fault α) := by
  intro fault h
  simp at h

theorem of_ok {a : α} (h : run = .ok a) : FailsAt path run := h ▸ ok a

theorem fail {cause : Cause} (h : cause.IsOfValue) :
    FailsAt path (Stanza.fail cause path : Except Fault α) := by
  intro fault herror
  rw [fail_eq] at herror
  exact ⟨cause, h, (Except.error.inj herror).symm⟩

theorem bind {next : α → Except Fault β} (h : FailsAt path run)
    (hnext : ∀ a, run = .ok a → FailsAt path (next a)) : FailsAt path (run >>= next) := by
  intro fault herror
  rcases bind_eq_error_iff.mp herror with herror | ⟨a, hok, herror⟩
  · exact h fault herror
  · exact hnext a hok fault herror

/-- What is made of a result fails where the result does. -/
theorem map (h : FailsAt path run) (f : α → β) :
    FailsAt path (run >>= fun a => pure (f a)) := h.bind fun a _ => ok (f a)

end FailsAt

/-! ### Leaves -/

section Leaves

variable {path : Path}

theorem Marker.ofEntries?_eq_some {entries : Entries} {marker : Marker} {payload : Value}
    (h : Marker.ofEntries? entries = some (marker, payload)) :
    entries = [(.text marker.name, payload)] := by
  unfold Marker.ofEntries? at h
  split at h
  · rename_i key payload
    obtain ⟨m, hname, h⟩ := Option.map_eq_some_iff.mp h
    obtain ⟨rfl, rfl⟩ := Prod.mk.inj h
    have hkey : key = m.name := by
      unfold Marker.ofName? at hname
      split_ifs at hname <;> cases hname <;> assumption
    rw [hkey]
  · simp at h

theorem Marker.failsAt_reference? (payload : Value) :
    FailsAt path (Marker.reference? path payload) := by
  unfold Marker.reference?
  split
  · exact .ok _
  · exact .fail (.inl rfl)

theorem Marker.failsAt_raw? (payload : Value) : FailsAt path (Marker.raw? path payload) := by
  unfold Marker.raw?
  split
  · exact .ok _
  · exact .fail (.inl rfl)

theorem failsAt_referenceText (name : Value) : FailsAt path (referenceText path name) := by
  unfold referenceText
  split
  · exact .ok _
  · exact .fail (.inl rfl)

theorem Expression.isOfValue_of_rejection? {s : String} {cause : Cause}
    (h : Expression.rejection? s = some cause) : cause.IsOfValue := by
  unfold Expression.rejection? at h
  split at h
  · obtain rfl := Option.some.inj h
    exact .inr rfl
  · split at h
    · simp at h
    all_goals
      obtain rfl := Option.some.inj h
      exact .inr rfl

theorem failsAt_rawText {style : Style} (expression : Value) :
    FailsAt path (rawText style path expression) := by
  unfold rawText
  split
  · split
    · refine .map ?_ _
      unfold Expression.checkText
      split
      · exact .ok _
      · exact .fail (Expression.isOfValue_of_rejection? ‹_›)
    · exact .ok _
  · exact .fail (.inl rfl)

theorem Template.failsAt_segmentsText (segments : List Value) :
    FailsAt path (segmentsText path segments) := by
  induction segments with
  | nil => exact .ok _
  | cons segment rest ih =>
    unfold segmentsText
    split
    · exact .ok _
    · obtain ⟨rfl, rfl⟩ := List.cons.inj ‹_›
      exact ih.map _
    · obtain ⟨rfl, rfl⟩ := List.cons.inj ‹_›
      exact (failsAt_referenceText _).bind fun _ _ => ih.map _
    · exact .fail (.inl rfl)

theorem Template.failsAt_text (segments : List Value) :
    FailsAt path (Template.text path segments) := (failsAt_segmentsText segments).map _

theorem failsAt_scalarText (v : Value) : FailsAt path (scalarText path v) := by
  unfold scalarText
  split
  · exact .ok _
  · exact .ok _
  · split
    · exact .ok _
    · exact .fail (.inl rfl)
  · split
    · exact .ok _
    · exact .fail (.inl rfl)
  · exact .ok _
  · exact .fail (.inl rfl)

end Leaves

/-! ### Rows and entries -/

namespace Value

section Rows

variable {style : Style} {path : Path} {index : Nat} {fault : Fault}

theorem toNodes_eq_mapM (items : List Value) :
    toNodes path index items =
      (numbered index items).mapM fun part => part.2.toNode (path ++ [part.1]) := by
  induction items generalizing index with
  | nil => rfl
  | cons item rest ih => rw [toNodes, numbered, List.mapM_cons, ih]

theorem segmentItems_eq_mapM (items : List Value) :
    segmentItems path index items =
      (numbered index items).mapM fun part => part.2.toSegment (path ++ [part.1]) := by
  induction items generalizing index with
  | nil => rfl
  | cons item rest ih => rw [segmentItems, numbered, List.mapM_cons, ih]

theorem renderItems_eq_mapM (items : List Value) :
    renderItems style path index items =
      (numbered index items).mapM fun part => part.2.render style (path ++ [part.1]) := by
  induction items generalizing index with
  | nil => rfl
  | cons item rest ih => rw [renderItems, numbered, List.mapM_cons, ih]

theorem entriesToNodes_eq_mapM (entries : Entries) :
    entriesToNodes path entries =
      entries.mapM fun part => do return (part.1, ← part.2.toNode (path ++ [part.1])) := by
  induction entries with
  | nil => rfl
  | cons entry rest ih =>
    rw [entriesToNodes, List.mapM_cons, ih, bind_assoc]
    simp only [pure_bind]

theorem objectKeyTexts_eq_mapM (entries : Entries) :
    objectKeyTexts path entries = entries.mapM fun part => objectKeyText path part.1 := by
  induction entries with
  | nil => rfl
  | cons entry rest ih => rw [objectKeyTexts, List.mapM_cons, ih]

theorem encode_eq_error_of_toNode {v : Value} (h : v.toNode path = .error fault) :
    v.encode style path = .error fault := bind_eq_error_iff.mpr (.inl h)

/-- Items that are read as nodes but not rendered: one of them fails by itself. -/
theorem renderItems_eq_error {items nodes : List Value}
    (hnodes : toNodes path index items = .ok nodes)
    (h : renderItems style path index items = .error fault) :
    ∃ part ∈ numbered index items, part.2.encode style (path ++ [part.1]) = .error fault := by
  rw [toNodes_eq_mapM] at hnodes
  rw [renderItems_eq_mapM] at h
  obtain ⟨part, hpart, herror⟩ := exists_error_of_mapM h
  obtain ⟨node, hnode⟩ := forall_ok_of_mapM hnodes part hpart
  exact ⟨part, hpart, bind_eq_error_iff.mpr (.inr ⟨node, hnode, herror⟩)⟩

/-- An entry is rendered as its value is encoded. -/
theorem renderEntries_cons (keys : List (List Char)) (entry : Value × Value) (rest : Entries) :
    renderEntries style path keys (entry :: rest) =
      entry.2.encode style (path ++ [entry.1]) >>= fun rendered =>
        renderEntries style path keys.tail rest >>= fun more =>
          pure (⟨keys.headD [], rendered⟩ :: more) := by
  rw [renderEntries, encode, bind_assoc]

theorem renderEntries_eq_error {keys : List (List Char)} {entries : Entries}
    (h : renderEntries style path keys entries = .error fault) :
    ∃ part ∈ entries, part.2.encode style (path ++ [part.1]) = .error fault := by
  induction entries generalizing keys with
  | nil => simp [renderEntries] at h
  | cons entry rest ih =>
    rw [renderEntries_cons] at h
    rcases bind_eq_error_iff.mp h with h | ⟨rendered, -, h⟩
    · exact ⟨entry, List.mem_cons_self, h⟩
    · obtain ⟨part, hpart, herror⟩ := ih (map_eq_error_iff.mp h)
      exact ⟨part, List.mem_cons_of_mem _ hpart, herror⟩

theorem objectKeyTexts_eq_error {entries : Entries}
    (h : objectKeyTexts path entries = .error fault) :
    ∃ key value, (key, value) ∈ entries ∧ ¬ key.IsName ∧
      fault = .ofCause (.objectKey key) (path ++ [key]) := by
  rw [objectKeyTexts_eq_mapM] at h
  obtain ⟨⟨key, value⟩, hmem, herror⟩ := exists_error_of_mapM h
  unfold objectKeyText at herror
  split at herror
  · simp at herror
  · rename_i hname
    rw [fail_eq] at herror
    refine ⟨key, value, hmem, ?_, (Except.error.inj herror).symm⟩
    cases key <;> simp_all [IsName, nonEmptyText?]

end Rows

/-! ### One value -/

section Step

variable {style : Style} {fault : Fault} {v : Value}

/-- A value fails by itself because of what is at fault there, and the wording quotes nothing but
the last step to it. -/
def FailsHere (style : Style) (fault : Fault) (v : Value) : Prop :=
  ∃ cause last, v.IsAtFault style cause last ∧ cause.quotes ⊆ last ∧ fault = .ofCause cause last

/-- A part of a value fails below its key. -/
def FailsBelow (style : Style) (fault : Fault) (v : Value) : Prop :=
  ∃ part ∈ v.parts, part.2.encode style [part.1] = .error fault

/-- An item of a template marker that is turned down is no segment, or is a template marker itself
that is turned down. -/
theorem toSegment_eq_error {path : Path} (h : v.toSegment path = .error fault) :
    (∃ cause : Cause, cause.IsOfValue ∧ fault = .ofCause cause path ∧ v.isSegment = false) ∨
      v.toNode path = .error fault := by
  -- what is turned down at once
  have hown : FailsAt path (v.toSegment path) → v.isSegment = false →
      (∃ cause : Cause, cause.IsOfValue ∧ fault = .ofCause cause path ∧ v.isSegment = false) ∨
        v.toNode path = .error fault := by
    intro hfails hsegment
    obtain ⟨cause, hcause, hfault⟩ := hfails fault h
    exact .inl ⟨cause, hcause, hfault, hsegment⟩
  match v with
  | .text _ | .reference _ => simp [toSegment] at h
  | .mapping [(key, payload)] =>
    cases key
    case text key =>
      rw [toSegment] at h hown
      cases hname : Marker.ofName? key with
      | none =>
        rw [hname] at hown
        exact hown (.fail (.inl rfl)) (by simp [isSegment, Marker.ofEntries?, hname])
      | some marker =>
        rw [hname] at h hown
        cases marker with
        | reference =>
          refine hown (Marker.failsAt_reference? payload) ?_
          cases hpayload : payload.nonEmptyText? with
          | none => simp [isSegment, Marker.ofEntries?, hname, hpayload]
          | some s => simp [Marker.reference?, hpayload] at h
        | raw =>
          exact hown ((Marker.failsAt_raw? payload).bind fun _ _ => .fail (.inl rfl))
            (by simp [isSegment, Marker.ofEntries?, hname])
        | template =>
          rcases bind_eq_error_iff.mp h with herror | ⟨segments, hsegments, -⟩
          · right
            simp only [toNode, Marker.ofEntries?, hname, Option.map_some, Marker.toNode]
            exact bind_eq_error_iff.mpr (.inl herror)
          · refine hown ?_ (by simp [isSegment, Marker.ofEntries?, hname])
            exact (FailsAt.of_ok hsegments).bind fun _ _ => .fail (.inl rfl)
    all_goals exact hown (.fail (.inl rfl)) rfl
  | .mapping (_ :: _ :: _) =>
    refine hown ?_ (by simp [isSegment, Marker.ofEntries?])
    rw [toSegment]
    · exact .fail (.inl rfl)
    all_goals simp
  | .null | .bool _ | .int _ | .float _ | .bytes _ | .buffer _ | .list _ | .tuple _
  | .mapping [] | .set _ | .date _ | .moment _ | .foreign _ | .raw _
  | .template _ | .literal _ | .sequence _ | .object _ | .block .. =>
    exact hown (.fail (.inl rfl)) rfl

/-- A payload that a template marker turns down has an item that is turned down, or is itself. -/
theorem markerSegments_eq_error {payload : Value}
    (h : payload.markerSegments [] = .error fault) :
    (∃ part ∈ (mapping [(.text Marker.template.name, payload)]).parts,
      part.2.toSegment [part.1] = .error fault) ∨ FailsAt [] (payload.markerSegments []) := by
  match payload with
  | .list items | .tuple items =>
    rw [markerSegments, segmentItems_eq_mapM] at h
    exact .inl (exists_error_of_mapM h)
  | .null | .bool _ | .int _ | .float _ | .text _ | .bytes _ | .buffer _ | .mapping _ | .set _
  | .date _ | .moment _ | .foreign _ | .reference _ | .raw _ | .template _ | .literal _
  | .sequence _ | .object _ | .block .. => exact .inr (.fail (.inl rfl))

/-- A run of a value that fails because of the value itself. -/
theorem failsHere_of_failsAt {α : Type} {run : Except Fault α} (hfails : FailsAt [] run)
    (hrun : run = .error fault) (h : v.encode style [] = .error fault) :
    v.FailsHere style fault := by
  obtain ⟨cause, hcause, rfl⟩ := hfails fault hrun
  refine ⟨cause, [], .value hcause ?_, by simp [hcause.quotes_eq_nil], rfl⟩
  rw [h, hcause.ofCause_nil]

/-- A value that has no node is at fault itself, or one of its parts fails. -/
theorem toNode_eq_error (h : v.toNode [] = .error fault) :
    v.FailsHere style fault ∨ v.FailsBelow style fault := by
  have hown : FailsAt [] (v.toNode []) → v.FailsHere style fault :=
    fun hfails => failsHere_of_failsAt hfails h (encode_eq_error_of_toNode h)
  match v with
  | .null | .bool _ | .int _ | .text _ | .reference _ | .raw _ | .template _ | .literal _
  | .sequence _ | .object _ => simp [toNode] at h
  | .float x =>
    refine .inl (hown ?_)
    rw [toNode]
    split
    · exact .ok _
    · exact .fail (.inl rfl)
  | .list items | .tuple items =>
    rw [toNode, toNodes_eq_mapM] at h
    obtain ⟨part, hpart, herror⟩ := exists_error_of_mapM (map_eq_error_iff.mp h)
    exact .inr ⟨part, hpart, encode_eq_error_of_toNode herror⟩
  | .mapping entries =>
    cases hmarker : Marker.ofEntries? entries with
    | none =>
      simp only [toNode, hmarker, entriesToNodes_eq_mapM] at h
      obtain ⟨part, hpart, herror⟩ := exists_error_of_mapM (map_eq_error_iff.mp h)
      refine .inr ⟨part, ?_, encode_eq_error_of_toNode (map_eq_error_iff.mp herror)⟩
      simpa [parts, hmarker] using hpart
    | some found =>
      obtain ⟨marker, payload⟩ := found
      simp only [toNode, hmarker] at h hown
      cases marker with
      | reference => exact .inl (hown (Marker.failsAt_reference? payload))
      | raw => exact .inl (hown (Marker.failsAt_raw? payload))
      | template =>
        obtain rfl := Marker.ofEntries?_eq_some hmarker
        rcases markerSegments_eq_error (map_eq_error_iff.mp h) with ⟨part, hpart, herror⟩ | hfails
        · rcases toSegment_eq_error herror with ⟨cause, hcause, rfl, hsegment⟩ | herror
          · refine .inl ⟨cause, [part.1], .segment hcause hpart hsegment, ?_, rfl⟩
            simp [hcause.quotes_eq_nil]
          · exact .inr ⟨part, hpart, encode_eq_error_of_toNode herror⟩
        · exact .inl (hown (hfails.map _))
  | .bytes _ | .buffer _ | .set _ | .date _ | .moment _ | .foreign _ | .block .. =>
    exact .inl (hown (.fail (.inl rfl)))

/-- An object that is not rendered has a key that is no name, or the value of an entry fails. -/
theorem objectEntries_eq_error {entries : Entries} (hentries : v.entries? = some entries)
    (hparts : v.parts = entries)
    (h : (do
        let keys ← objectKeyTexts [] entries
        return Rendered.ofAssignments style (← renderEntries style [] keys entries)) =
      .error fault) :
    v.FailsHere style fault ∨ v.FailsBelow style fault := by
  rcases bind_eq_error_iff.mp h with herror | ⟨texts, -, herror⟩
  · obtain ⟨key, value, hmem, hname, rfl⟩ := objectKeyTexts_eq_error herror
    exact .inl ⟨.objectKey key, [key], .key rfl hentries hmem hname, List.Subset.refl _, rfl⟩
  · obtain ⟨part, hpart, herror⟩ := renderEntries_eq_error (map_eq_error_iff.mp herror)
    exact .inr ⟨part, hparts ▸ hpart, herror⟩

/-- A value that has a node but is not rendered is at fault itself, or one of its parts fails. -/
theorem render_eq_error {node : Value} (hnode : v.toNode [] = .ok node)
    (h : v.render style [] = .error fault) :
    v.FailsHere style fault ∨ v.FailsBelow style fault := by
  have hown : FailsAt [] (v.render style []) → v.FailsHere style fault :=
    fun hfails => failsHere_of_failsAt hfails h (bind_eq_error_iff.mpr (.inr ⟨node, hnode, h⟩))
  match v with
  | .list items | .tuple items | .sequence items =>
    rw [render] at h
    rcases bind_eq_error_iff.mp h with herror | ⟨nodes, hnodes, herror⟩
    · rw [toNodes_eq_mapM] at herror
      obtain ⟨part, hpart, herror⟩ := exists_error_of_mapM herror
      exact .inr ⟨part, hpart, encode_eq_error_of_toNode herror⟩
    · exact .inr (renderItems_eq_error hnodes (map_eq_error_iff.mp herror))
  | .object entries => exact objectEntries_eq_error rfl rfl h
  | .mapping entries =>
    cases hmarker : Marker.ofEntries? entries with
    | none =>
      simp only [render, hmarker] at h
      exact objectEntries_eq_error rfl (by simp [parts, hmarker]) h
    | some found =>
      obtain ⟨marker, payload⟩ := found
      simp only [render, hmarker] at hown
      refine .inl (hown (FailsAt.map ?_ _))
      cases marker with
      | reference =>
        exact (Marker.failsAt_reference? payload).bind fun _ _ => failsAt_referenceText payload
      | raw => exact (Marker.failsAt_raw? payload).bind fun _ _ => failsAt_rawText payload
      | template =>
        simp only [toNode, hmarker, Marker.toNode] at hnode
        obtain ⟨segments, hsegments, -⟩ := bind_eq_ok_iff.mp hnode
        exact (FailsAt.of_ok hsegments).bind fun _ _ => Template.failsAt_text _
  | .reference name => exact .inl (hown ((failsAt_referenceText name).map _))
  | .raw expression => exact .inl (hown ((failsAt_rawText expression).map _))
  | .template segments => exact .inl (hown ((Template.failsAt_text segments).map _))
  | .literal _ | .null | .bool _ | .int _ | .float _ | .text _ | .bytes _ | .buffer _ | .set _
  | .date _ | .moment _ | .foreign _ | .block .. => exact .inl (hown ((failsAt_scalarText _).map _))

/-- **One step of a path.** A value that fails is at fault itself, or one of its parts fails with
the same fault below its key. -/
theorem encode_eq_error (h : v.encode style [] = .error fault) :
    v.FailsHere style fault ∨ v.FailsBelow style fault := by
  rcases bind_eq_error_iff.mp h with h | ⟨node, hnode, h⟩
  · exact toNode_eq_error h
  · exact render_eq_error hnode h

theorem mem_of_mem_numbered {index : Nat} {items : List Value} {part : Value × Value}
    (h : part ∈ numbered index items) : part.2 ∈ items := by
  induction items generalizing index with
  | nil => cases h
  | cons item rest ih =>
    rcases List.mem_cons.mp h with rfl | h
    · exact List.mem_cons_self
    · exact List.mem_cons_of_mem _ (ih h)

/-- A part of a value is smaller than the value. -/
theorem sizeOf_lt_of_mem_parts {part : Value × Value} (h : part ∈ v.parts) :
    sizeOf part.2 < sizeOf v := by
  have hitems : ∀ {items : List Value} {index : Nat}, part ∈ numbered index items →
      sizeOf part.2 < sizeOf items := fun hmem => List.sizeOf_lt_of_mem (mem_of_mem_numbered hmem)
  have hentries : ∀ {entries : Entries}, part ∈ entries → sizeOf part.2 < sizeOf entries := by
    intro entries hmem
    have hpart := List.sizeOf_lt_of_mem hmem
    have hvalue : sizeOf part = 1 + sizeOf part.1 + sizeOf part.2 := rfl
    omega
  unfold parts at h
  split at h
  · have := hitems h
    simp
    omega
  · have := hitems h
    simp
    omega
  · have := hitems h
    simp
    omega
  · split at h
    · have := hentries h
      simp
      omega
    · rename_i hmarker
      obtain rfl := Marker.ofEntries?_eq_some hmarker
      have := hitems h
      simp
      omega
    · rename_i hmarker
      obtain rfl := Marker.ofEntries?_eq_some hmarker
      have := hitems h
      simp
      omega
    · cases h
  · have := hentries h
    simp
    omega
  · cases h

/-- **A whole path.** The fault of a value is made of a path that leads down to what is at fault,
and of its cause. -/
theorem exists_leads_of_encode {v : Value} {fault : Fault} {path : Path}
    (h : v.encode style path = .error fault) :
    ∃ cause way w last, fault = .ofCause cause (path ++ (way ++ last)) ∧ v.Leads way w ∧
      w.IsAtFault style cause last ∧ cause.quotes ⊆ last := by
  have halike := alike_encode rfl (False.elim : Tied False style style) (.refl path []) v
  -- by itself the value fails as well, and there the steps begin
  obtain ⟨own, hown⟩ := halike.exists_error h
  suffices hsteps : ∃ cause way w last, own = .ofCause cause (way ++ last) ∧ v.Leads way w ∧
      w.IsAtFault style cause last ∧ cause.quotes ⊆ last by
    obtain ⟨cause, way, w, last, rfl, hleads⟩ := hsteps
    exact ⟨cause, way, w, last, Except.error.inj (h.symm.trans (halike.of_ofCause hown)), hleads⟩
  rcases encode_eq_error hown with ⟨cause, last, hfault, hquotes, rfl⟩ | ⟨part, hpart, herror⟩
  · exact ⟨cause, [], v, last, rfl, .here v, hfault, hquotes⟩
  · have hsize := sizeOf_lt_of_mem_parts hpart
    obtain ⟨cause, way, w, last, rfl, hleads, hfault⟩ := exists_leads_of_encode herror
    exact ⟨cause, part.1 :: way, w, last, rfl, .part hpart hleads, hfault⟩
termination_by sizeOf v

end Step

end Value

end Stanza
