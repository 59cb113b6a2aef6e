import Stanza.Proofs.Block.Opening
import Stanza.Proofs.Expression.Grammar
import Stanza.Proofs.Fault.Reported

/-!
Checking raw expressions as a filter.

A style may ask for raw expressions to be checked, and this decides nothing but whether a run goes
on past one of them. `Filtered` relates a run that does not check to one that does: they end in the
same way, unless the second is stopped by a raw expression that is turned down, at the place where
it stands. The relation passes through steps in a row (`Filtered.bind`) and up a path
(`Filtered.below`), so there is one lemma for each function that the style gets to, up to
`Block.filtered_lines`.

Where raw expressions stand is said without running anything: `Block.HasRaw`, by the blocks of a
forest, their attributes and `Value.Leads`. A run that checks and succeeds has come to all of them
(`Block.accepts_of_hasRaw`). `Document.compile_validate` puts the two together.
-/

namespace Stanza

/-! ### Where raw expressions stand -/

namespace Value

/-- What is given as the text of a raw expression, by a node or by a marker. -/
def rawExpression? : Value → Option Value
  | .raw expression => some expression
  | .mapping entries =>
      match Marker.ofEntries? entries with
      | some (.raw, payload) => some payload
      | _ => none
  | _ => none

/-- A text or an index, as paths to what a block holds are made of. -/
def IsPlace (key : Value) : Prop := (∃ s, key = .text s) ∨ ∃ index : Nat, key = .int index

end Value

/-- A raw expression is turned down by itself, with a cause. -/
def Expression.IsRejected (expression : Value) (cause : Cause) : Prop :=
  cause.kind? = some .expression ∧ check expression [] = .error (.compile ⟨cause, []⟩)

/-- A raw expression stands in a forest: in an attribute of one of its blocks or of a block inside
one of them, at any depth. The path to it has the addresses of the blocks, the name of the
attribute, and the keys and indices that lead down the value. -/
inductive Block.HasRaw : List Value → Path → Value → Prop where
  | own {nodes parts : List Value} {blockPath children name value w expression : Value}
      {entries : Entries} {keys : Path} :
      .block blockPath (.mapping entries) children ∈ nodes → blockPath.items? = some parts →
      (name, value) ∈ entries → value.Leads keys w → w.rawExpression? = some expression →
      HasRaw nodes (.text (dotted parts) :: name :: keys) expression
  | inside {nodes parts items : List Value} {blockPath attributes children expression : Value}
      {path : Path} :
      .block blockPath attributes children ∈ nodes → blockPath.items? = some parts →
      children.items? = some items → HasRaw items path expression →
      HasRaw nodes (.text (dotted parts) :: path) expression

theorem Block.HasRaw.mono {nodes more : List Value} {path : Path} {expression : Value}
    (h : HasRaw nodes path expression) (hsub : nodes ⊆ more) : HasRaw more path expression := by
  cases h with
  | own hnode hparts hentry hleads hraw => exact .own (hsub hnode) hparts hentry hleads hraw
  | inside hnode hparts hitems hinner => exact .inside (hsub hnode) hparts hitems hinner

/-! ### The relation -/

/-- What may stop a run: a cause, at the end of a path that leads down from where the run is. -/
abbrev Stops := Path → Cause → Prop

/-- A run at a path that checks raw expressions, against one that does not: it ends in the same way,
unless something stops it further down. -/
inductive Filtered {α : Type} (path : Path) (stops : Stops) (off : Except Fault α) :
    Except Fault α → Prop where
  | same : Filtered path stops off off
  | stopped {keys : Path} {cause : Cause} : stops keys cause →
      Filtered path stops off (fail cause (path ++ keys))

namespace Filtered

variable {α β : Type} {path : Path} {stops others : Stops} {off on : Except Fault α}

/-- Steps in a row are filtered when each of them is. -/
theorem bind {f g : α → Except Fault β} (h : Filtered path stops off on)
    (hnext : ∀ a, off = .ok a → Filtered path stops (f a) (g a)) :
    Filtered path stops (off >>= f) (on >>= g) := by
  cases h with
  | same =>
    cases off with
    | error fault => exact .same
    | ok a => exact hnext a rfl
  | stopped hstops =>
    rw [fail_bind]
    exact .stopped hstops

theorem map (h : Filtered path stops off on) (f : α → β) :
    Filtered path stops (off >>= fun a => pure (f a)) (on >>= fun a => pure (f a)) :=
  h.bind fun _ _ => .same

theorem eq_or_exists (h : Filtered path stops off on) :
    on = off ∨ ∃ keys cause, stops keys cause ∧ on = fail cause (path ++ keys) := by
  cases h with
  | same => exact .inl rfl
  | stopped hstops => exact .inr ⟨_, _, hstops, rfl⟩

theorem mono (h : Filtered path stops off on)
    (hsub : ∀ keys cause, stops keys cause → others keys cause) : Filtered path others off on := by
  cases h with
  | same => exact .same
  | stopped hstops => exact .stopped (hsub _ _ hstops)

/-- What stops a run further down stops it where the run above it is. -/
theorem below {key : Value} (h : Filtered (path ++ [key]) stops off on)
    (hsub : ∀ keys cause, stops keys cause → others (key :: keys) cause) :
    Filtered path others off on := by
  cases h with
  | same => exact .same
  | stopped hstops =>
    rw [List.append_assoc, List.singleton_append]
    exact .stopped (hsub _ _ hstops)

end Filtered

/-! ### Values -/

/-- A raw expression in a value is turned down. -/
def Value.stops (v : Value) : Stops := fun keys cause =>
  (∀ key ∈ keys, key.IsPlace) ∧ ∃ w expression, v.Leads keys w ∧
    w.rawExpression? = some expression ∧ Expression.IsRejected expression cause

/-- A raw expression under a key of some entries is turned down. -/
def Entries.stops (entries : Entries) : Stops := fun keys cause =>
  ∃ key child rest, (key, child) ∈ entries ∧ keys = key :: rest ∧ key.IsPlace ∧
    child.stops rest cause

section Values

variable {path : Path} {keys : Path} {cause : Cause} {v : Value} {entries more : Entries}

theorem Entries.stops.mono (h : entries.stops keys cause) (hsub : entries ⊆ more) :
    more.stops keys cause := by
  obtain ⟨key, child, rest, hmem, hkeys, hkey, hchild⟩ := h
  exact ⟨key, child, rest, hsub hmem, hkeys, hkey, hchild⟩

/-- What stops a run in a part of a value stops it in the value. -/
theorem Value.stops_of_parts (h : Entries.stops v.parts keys cause) : v.stops keys cause := by
  obtain ⟨key, child, rest, hmem, rfl, hkey, hplaces, w, expression, hleads, hraw, hrejected⟩ := h
  exact ⟨List.forall_mem_cons.mpr ⟨hkey, hplaces⟩, w, expression, .part hmem hleads, hraw,
    hrejected⟩

/-- A raw expression that is turned down stops a run where it stands. -/
theorem filtered_rawText (style : Style) (path : Path) {expression : Value}
    (h : v.rawExpression? = some expression) :
    Filtered path v.stops (rawText { style with validate := false } path expression)
      (rawText { style with validate := true } path expression) := by
  cases expression with
  | text s =>
    cases hrejection : Expression.rejection? s with
    | none =>
      have hcheck : Expression.checkText s path = .ok s := by
        simp [Expression.checkText, hrejection]
      simp only [rawText, hcheck]
      exact .same
    | some cause =>
      have hrejected : Expression.IsRejected (.text s) cause :=
        ⟨(Expression.kind?_of_rejection? hrejection).1,
          Expression.check_nil_of_rejection? hrejection⟩
      have hstops : v.stops [] cause := ⟨by simp, v, .text s, .here v, h, hrejected⟩
      have hon : rawText { style with validate := true } path (.text s) =
          fail cause (path ++ []) := by
        have hcheck : Expression.checkText s path = fail cause path :=
          Expression.check_of_rejection? hrejection path
        rw [List.append_nil]
        simp only [rawText, hcheck, if_true, fail_bind]
      rw [hon]
      exact .stopped hstops
  | _ => exact .same

/-- Markers of raw expressions are all that is checked among markers. -/
theorem filtered_markerText (style : Style) (path : Path) {marker : Marker} {payload : Value}
    (h : Marker.ofEntries? entries = some (marker, payload)) :
    Filtered path (Value.mapping entries).stops
      (markerText { style with validate := false } path payload marker)
      (markerText { style with validate := true } path payload marker) := by
  cases marker with
  | reference | template => exact .same
  | raw =>
    refine .bind .same fun _ _ => filtered_rawText style path ?_
    rw [Value.rawExpression?, h]

namespace Value

/-- The keys of an object that have been checked are texts. -/
theorem isPlace_of_objectKeyTexts {keys : List (List Char)}
    (h : objectKeyTexts path entries = .ok keys) : ∀ entry ∈ entries, entry.1.IsPlace := by
  intro entry hentry
  have hname := (objectKeyTexts_eq_ok h).1 entry hentry
  cases hkey : entry.1 with
  | text s => exact .inl ⟨s, rfl⟩
  | _ => simp [hkey, IsName] at hname

mutual

/-- **Rendering is filtered.** With raw expressions checked, a value is rendered to the same, or the
run is stopped at one of them. -/
theorem filtered_render (style : Style) (path : Path) (v : Value) :
    Filtered path v.stops (v.render { style with validate := false } path)
      (v.render { style with validate := true } path) := by
  match v with
  | .list items | .tuple items | .sequence items =>
    have hitems := filtered_renderItems style path 0 items
    refine .bind .same fun _ _ => (hitems.mono fun _ _ hstops => ?_).bind fun _ _ => .same
    exact stops_of_parts hstops
  | .object entries =>
    refine .bind .same fun keys hkeys => ?_
    have hvalues :=
      filtered_renderEntries style path keys (isPlace_of_objectKeyTexts hkeys)
    refine (hvalues.mono fun _ _ hstops => ?_).bind fun _ _ => .same
    exact stops_of_parts hstops
  | .mapping entries =>
    rw [render, render]
    cases hmarker : Marker.ofEntries? entries with
    | some found => exact (filtered_markerText style path hmarker).map _
    | none =>
      refine .bind .same fun keys hkeys => ?_
      have hparts : (mapping entries).parts = entries := by rw [parts, hmarker]
      have hvalues :=
        filtered_renderEntries style path keys (isPlace_of_objectKeyTexts hkeys)
      refine (hvalues.mono fun _ _ hstops => stops_of_parts ?_).bind fun _ _ => .same
      rwa [hparts]
  | .raw expression => exact (filtered_rawText style path rfl).map _
  | .reference _ | .template _ | .literal _ | .null | .bool _ | .int _ | .float _ | .text _
  | .bytes _ | .buffer _ | .set _ | .date _ | .moment _ | .foreign _ | .block .. => exact .same
termination_by structural v

theorem filtered_renderItems (style : Style) (path : Path) (index : Nat) (items : List Value) :
    Filtered path (Entries.stops (numbered index items))
      (renderItems { style with validate := false } path index items)
      (renderItems { style with validate := true } path index items) := by
  match items with
  | [] => exact .same
  | item :: rest =>
    rw [renderItems, renderItems]
    have hfirst := filtered_render style (path ++ [.int index]) item
    have hrest := filtered_renderItems style path (index + 1) rest
    refine (hfirst.below fun keys cause hstops => ?_).bind fun _ _ =>
      (hrest.mono fun keys cause hstops => ?_).map _
    · exact ⟨_, item, keys, List.mem_cons_self, rfl, .inr ⟨index, rfl⟩, hstops⟩
    · exact hstops.mono (List.subset_cons_self _ _)
termination_by structural items

theorem filtered_renderEntries (style : Style) (path : Path) (keys : List (List Char))
    {entries : List (Value × Value)} (hplaces : ∀ entry ∈ entries, entry.1.IsPlace) :
    Filtered path (Entries.stops entries)
      (renderEntries { style with validate := false } path keys entries)
      (renderEntries { style with validate := true } path keys entries) := by
  match entries with
  | [] => exact .same
  | (key, value) :: rest =>
    obtain ⟨hkey, hplaces⟩ := List.forall_mem_cons.mp hplaces
    rw [renderEntries, renderEntries]
    have hfirst := filtered_render style (path ++ [key]) value
    have hrest := filtered_renderEntries style path keys.tail hplaces
    refine .bind .same fun _ _ => (hfirst.below fun keys cause hstops => ?_).bind fun _ _ =>
      (hrest.mono fun keys cause hstops => ?_).map _
    · exact ⟨key, value, keys, List.mem_cons_self, rfl, hkey, hstops⟩
    · exact hstops.mono (List.subset_cons_self _ _)
termination_by structural entries

end

end Value

end Values

/-! ### Blocks -/

/-- A raw expression in a forest is turned down. -/
def Block.stops (nodes : List Value) : Stops := fun keys cause =>
  (∀ key ∈ keys, key.IsPlace) ∧ ∃ expression, HasRaw nodes keys expression ∧
    Expression.IsRejected expression cause

/-- A raw expression in one of the children of a block is turned down. -/
def Block.childStops (children : Value) : Stops := fun keys cause =>
  ∃ items, children.items? = some items ∧ stops items keys cause

theorem Attributes.filtered_ofEntries (style : Style) (path : Path) (entries : Entries) :
    Filtered path entries.stops (ofEntries { style with validate := false } path entries)
      (ofEntries { style with validate := true } path entries) := by
  refine .bind .same fun names hnames => ?_
  have hplaces : ∀ entry ∈ entries, entry.1.IsPlace := by
    intro entry hentry
    have hname := (nameTexts_eq_ok hnames).1 entry hentry
    cases hkey : entry.1 with
    | text s => exact .inl ⟨s, rfl⟩
    | _ => simp [hkey, Value.IsIdentifier] at hname
  exact (Value.filtered_renderEntries style path names hplaces).bind fun _ _ => .same

namespace Block

section Blocks

variable {path keys : Path} {cause : Cause} {nodes more parts : List Value}
  {blockPath attributes children : Value} {entries : Entries}

theorem stops.mono (h : stops nodes keys cause) (hsub : nodes ⊆ more) : stops more keys cause := by
  obtain ⟨hplaces, expression, hraw, hrejected⟩ := h
  exact ⟨hplaces, expression, hraw.mono hsub, hrejected⟩

/-- What stops a run in the attributes of a block stops it in the block. -/
theorem stops_of_entries (hparts : blockPath.items? = some parts)
    (hentries : attributeEntries path attributes = .ok entries) (h : entries.stops keys cause) :
    stops [.block blockPath attributes children] (.text (dotted parts) :: keys) cause := by
  obtain ⟨name, value, rest, hentry, rfl, hname, hplaces, w, expression, hleads, hraw,
    hrejected⟩ := h
  have hmapping : attributes = .mapping entries := by
    unfold attributeEntries at hentries
    split at hentries
    · obtain rfl := Except.ok.inj hentries
      cases hentry
    · exact congrArg _ (Except.ok.inj hentries)
    · exact absurd hentries fail_ne_ok
  rw [hmapping]
  refine ⟨?_, expression, .own (List.mem_singleton_self _) hparts hentry hleads hraw, hrejected⟩
  exact List.forall_mem_cons.mpr ⟨.inl ⟨_, rfl⟩, List.forall_mem_cons.mpr ⟨hname, hplaces⟩⟩

/-- What stops a run in the children of a block stops it in the block. -/
theorem stops_of_children (hparts : blockPath.items? = some parts)
    (h : childStops children keys cause) :
    stops [.block blockPath attributes children] (.text (dotted parts) :: keys) cause := by
  obtain ⟨items, hitems, hplaces, expression, hraw, hrejected⟩ := h
  refine ⟨?_, expression, .inside (List.mem_singleton_self _) hparts hitems hraw, hrejected⟩
  exact List.forall_mem_cons.mpr ⟨.inl ⟨_, rfl⟩, hplaces⟩

theorem exists_items_of_header {header : List Char} {address : String}
    (h : Block.header path blockPath = .ok (header, address)) :
    ∃ parts, blockPath.items? = some parts ∧ address = dotted parts := by
  cases blockPath with
  | list parts | tuple parts => exact ⟨parts, rfl, header_list_eq_ok h⟩
  | _ => exact absurd h fail_ne_ok

mutual

/-- **Compiling is filtered.** With raw expressions checked, a block has the same lines, or the run
is stopped at one of them. -/
theorem filtered_lines (style : Style) (path : Path) (node : Value) :
    Filtered path (stops [node]) (lines { style with validate := false } path node)
      (lines { style with validate := true } path node) := by
  match node with
  | .block blockPath attributes children =>
    rw [lines, lines]
    -- the header, the form of the attributes and that of the children are no matter of style
    refine .bind .same fun found hheader => ?_
    obtain ⟨header, address⟩ := found
    obtain ⟨parts, hparts, rfl⟩ := exists_items_of_header hheader
    refine .bind .same fun entries hentries => .bind .same fun _ _ => ?_
    have hbody := Attributes.filtered_ofEntries style (path ++ [.text (dotted parts)]) entries
    have hnested := fun follows =>
      filtered_childLines style (path ++ [.text (dotted parts)]) follows children
    refine (hbody.below fun keys cause hstops => ?_).bind fun rs _ =>
      ((hnested _).below fun keys cause hstops => ?_).map _
    · exact stops_of_entries hparts hentries hstops
    · exact stops_of_children hparts hstops
  | .null | .bool _ | .int _ | .float _ | .text _ | .bytes _ | .buffer _ | .list _ | .tuple _
  | .mapping _ | .set _ | .date _ | .moment _ | .foreign _ | .reference _ | .raw _ | .template _
  | .literal _ | .sequence _ | .object _ => exact .same
termination_by sizeOf node

theorem filtered_childLines (style : Style) (path : Path) (follows : Bool) (children : Value) :
    Filtered path (childStops children)
      (childLines { style with validate := false } path follows children)
      (childLines { style with validate := true } path follows children) := by
  match children with
  | .list items | .tuple items | .set items =>
    exact (filtered_itemLines style path follows items).mono fun _ _ hstops => ⟨items, rfl, hstops⟩
  | .buffer _ | .foreign _ | .null | .bool _ | .int _ | .float _ | .text _ | .bytes _ | .mapping _
  | .date _ | .moment _ | .reference _ | .raw _ | .template _ | .literal _ | .sequence _
  | .object _ | .block .. => exact .same
termination_by sizeOf children

theorem filtered_itemLines (style : Style) (path : Path) (follows : Bool) (items : List Value) :
    Filtered path (stops items) (itemLines { style with validate := false } path follows items)
      (itemLines { style with validate := true } path follows items) := by
  match items with
  | [] => exact .same
  | item :: rest =>
    rw [itemLines, itemLines]
    have hfirst := filtered_lines style path item
    have hrest := filtered_itemLines style path true rest
    refine (hfirst.mono fun keys cause hstops => ?_).bind fun _ _ =>
      (hrest.mono fun keys cause hstops => ?_).map _
    · exact hstops.mono (by simp)
    · exact hstops.mono (List.subset_cons_self _ _)
termination_by sizeOf items

end

end Blocks

end Block

/-! ### Runs that come to every raw expression -/

namespace Value

section Accepting

variable {style : Style} {path keys : Path} {v w expression segment : Value}

theorem isSegment_of_toSegment (h : v.toSegment path = .ok segment) : v.isSegment := by
  unfold toSegment at h
  split at h
  · rfl
  · rfl
  · rename_i key payload
    split at h
    · rename_i hname
      unfold Marker.reference? at h
      split at h
      · simp [isSegment, Marker.ofEntries?, hname, ‹payload.nonEmptyText? = some _›]
      · exact absurd h fail_ne_ok
    · obtain ⟨_, -, h⟩ := bind_eq_ok_iff.mp h
      exact absurd h fail_ne_ok
    · obtain ⟨_, -, h⟩ := bind_eq_ok_iff.mp h
      exact absurd h fail_ne_ok
    · exact absurd h fail_ne_ok
  · exact absurd h fail_ne_ok

/-- No raw expression stands in an item of a template. -/
theorem rawExpression?_of_isSegment (h : v.isSegment) (hleads : v.Leads keys w) :
    w.rawExpression? = none := by
  have hleaf : v.parts = [] ∧ v.rawExpression? = none := by
    unfold isSegment at h
    split at h
    · exact ⟨rfl, rfl⟩
    · exact ⟨rfl, rfl⟩
    · split at h
      · simp [parts, rawExpression?, *]
      · cases h
    · cases h
  cases hleads with
  | here => exact hleaf.2
  | part hpart =>
    rw [hleaf.1] at hpart
    cases hpart

/-- The items of a template marker that is encoded are segments. -/
theorem isSegment_of_encodes {payload : Value} {entries : Entries} {part : Value × Value}
    (hmarker : Marker.ofEntries? entries = some (.template, payload))
    (h : Encodes style (.mapping entries)) (hpart : part ∈ (mapping entries).parts) :
    part.2.isSegment := by
  obtain ⟨-, r, hrender⟩ := encodes_iff.mp h
  rw [render, hmarker] at hrender
  obtain ⟨text, htext, -⟩ := bind_eq_ok_iff.mp hrender
  obtain ⟨segments, hsegments, -⟩ := bind_eq_ok_iff.mp htext
  rw [parts, hmarker] at hpart
  cases payload with
  | list items | tuple items =>
    rw [markerSegments, segmentItems_eq_mapM] at hsegments
    obtain ⟨segment, hsegment⟩ := forall_ok_of_mapM hsegments part hpart
    exact isSegment_of_toSegment hsegment
  | _ => cases hpart

/-- The parts of a value that is encoded are encoded, or are items of a template. -/
theorem encodes_or_isSegment_of_mem_parts {part : Value × Value} (h : Encodes style v)
    (hpart : part ∈ v.parts) : Encodes style part.2 ∨ part.2.isSegment := by
  cases v with
  | list items =>
    exact .inl ((encodes_value_iff .list items).mp h _ (mem_of_mem_numbered hpart))
  | tuple items =>
    exact .inl ((encodes_value_iff .tuple items).mp h _ (mem_of_mem_numbered hpart))
  | sequence items =>
    exact .inl ((encodes_value_iff .sequence items).mp h _ (mem_of_mem_numbered hpart))
  | object entries => exact .inl (((encodes_object_iff entries).mp h).2 part hpart)
  | mapping entries =>
    cases hmarker : Marker.ofEntries? entries with
    | none =>
      rw [parts, hmarker] at hpart
      have hvalues := ((encodes_object_iff entries).mp ((encodes_mapping_iff hmarker).mp h)).2
      exact .inl (hvalues part hpart)
    | some found =>
      obtain ⟨marker, payload⟩ := found
      cases marker with
      | template => exact .inr (isSegment_of_encodes hmarker h hpart)
      | reference | raw => simp [parts, hmarker] at hpart
  | _ => cases hpart

/-- A raw expression that is rendered where it is checked is accepted. -/
theorem accepts_of_rawText {text : List Char} (hvalidate : style.validate = true)
    (h : rawText style path expression = .ok text) :
    ∃ s, Expression.check expression [] = .ok s := by
  obtain ⟨s, rfl, -⟩ := rawText_eq_ok h
  rw [rawText, if_pos hvalidate] at h
  obtain ⟨t, ht, -⟩ := bind_eq_ok_iff.mp h
  obtain ⟨hrejection, -⟩ := checkText_eq_ok ht
  exact ⟨s, by simp [Expression.check, Expression.checkText, hrejection]⟩

theorem accepts_of_encodes (hvalidate : style.validate = true) (h : Encodes style v)
    (hraw : v.rawExpression? = some expression) : ∃ s, Expression.check expression [] = .ok s := by
  obtain ⟨-, r, hrender⟩ := encodes_iff.mp h
  unfold rawExpression? at hraw
  split at hraw
  · obtain rfl := Option.some.inj hraw
    rw [render] at hrender
    obtain ⟨text, htext, -⟩ := bind_eq_ok_iff.mp hrender
    exact accepts_of_rawText hvalidate htext
  · split at hraw
    · rename_i hmarker
      obtain rfl := Option.some.inj hraw
      rw [render, hmarker] at hrender
      obtain ⟨text, htext, -⟩ := bind_eq_ok_iff.mp hrender
      obtain ⟨_, -, htext⟩ := bind_eq_ok_iff.mp htext
      exact accepts_of_rawText hvalidate htext
    · cases hraw
  · cases hraw

/-- Where raw expressions are checked, those in a value that is encoded are accepted. -/
theorem accepts_of_leads (hvalidate : style.validate = true) (h : Encodes style v)
    (hleads : v.Leads keys w) (hraw : w.rawExpression? = some expression) :
    ∃ s, Expression.check expression [] = .ok s := by
  -- down to an item of a template, where the way to a raw expression would end
  induction hleads with
  | here v => exact accepts_of_encodes hvalidate h hraw
  | part hpart hleads ih =>
    rcases encodes_or_isSegment_of_mem_parts h hpart with hchild | hsegment
    · exact ih hchild hraw
    · rw [rawExpression?_of_isSegment hsegment hleads] at hraw
      cases hraw

end Accepting

end Value

namespace Block

/-- The children of a block that compiles compile. -/
theorem compiles_of_items {style : Style} {blockPath attributes children : Value}
    {items : List Value} (h : Compiles style (.block blockPath attributes children))
    (hitems : children.items? = some items) : ∀ item ∈ items, Compiles style item := by
  obtain ⟨ls, h⟩ := h
  obtain ⟨_, address, _, rs, nested, -, -, hrow, -, hnested, -⟩ := lines_block_eq_ok_iff.mp h
  have hnone : ∀ {here : Path} {others : List Value}, noBlocks here others = .ok nested →
      others = [] := by
    intro here others hothers
    cases others with
    | nil => rfl
    | cons item rest => exact absurd hothers fail_ne_ok
  cases children with
  | list members | tuple members | set members =>
    obtain rfl := Option.some.inj hitems
    exact exists_itemLines_iff.mp ⟨nested, hnested⟩
  | buffer bytes =>
    obtain rfl := Option.some.inj hitems
    rw [hnone hnested]
    simp
  | foreign f =>
    rw [childLines, show f.items? = some items from hitems] at hnested
    obtain rfl : items = [] := hnone hnested
    simp
  | null => cases hitems
  | _ => cases hrow

/-- **A run that checks comes to every raw expression.** Where raw expressions are checked, those in
a forest that compiles are accepted. -/
theorem accepts_of_hasRaw {style : Style} {nodes : List Value} {path : Path} {expression : Value}
    (hvalidate : style.validate = true) (hraw : HasRaw nodes path expression)
    (h : ∀ node ∈ nodes, Compiles style node) : ∃ s, Expression.check expression [] = .ok s := by
  induction hraw with
  | own hnode hparts hentry hleads hexpression =>
    obtain ⟨-, -, hvalues⟩ := compiles_mapping_iff.mp (h _ hnode)
    exact Value.accepts_of_leads hvalidate (hvalues _ hentry) hleads hexpression
  | inside hnode hparts hitems _ ih => exact ih (compiles_of_items (h _ hnode) hitems)

end Block

/-! ### Documents -/

namespace Document

open Block

theorem filtered_blockTexts (format : Format) (nodes : List Value) :
    Filtered [] (stops nodes) (blockTexts { format with validate := false } nodes)
      (blockTexts { format with validate := true } nodes) := by
  induction nodes with
  | nil => exact .same
  | cons node rest ih =>
    have hfirst := filtered_lines format.toStyle [] node
    refine ((hfirst.mono fun keys cause hstops => ?_).map _).bind fun _ _ =>
      (ih.mono fun keys cause hstops => ?_).map _
    · exact hstops.mono (by simp)
    · exact hstops.mono (List.subset_cons_self _ _)

/-- A path of texts and indices can be written unless one of the indices cannot. -/
theorem exists_index_of_not_areWritable {path : Path} (hplaces : ∀ key ∈ path, key.IsPlace)
    (h : Value.areWritable path = false) :
    ∃ index : Nat, .int index ∈ path ∧ withinDigitLimit index = false := by
  obtain ⟨key, hmem, hkey⟩ : ∃ key ∈ path, ¬key.isWritable := by
    rw [← Bool.not_eq_true, Value.areWritable_iff] at h
    simpa using h
  rcases hplaces key hmem with ⟨s, rfl⟩ | ⟨index, rfl⟩
  · exact absurd rfl hkey
  · exact ⟨index, hmem, by simpa [Value.isWritable] using hkey⟩

/-- A run fails with the cause why a raw expression of a forest is turned down and the path to it.
The error cannot be told if an index on the path has too many digits. -/
def FailsAtRaw {α : Type} (nodes : List Value) (run : Except Fault α) : Prop :=
  ∃ path expression cause, HasRaw nodes path expression ∧
    Expression.IsRejected expression cause ∧
    (run = .error (.compile ⟨cause, path⟩) ∨ run = .error .unwritable ∧
      ∃ index : Nat, .int index ∈ path ∧ withinDigitLimit index = false)

theorem failsAtRaw_of_stops {α : Type} {nodes : List Value} {path : Path} {cause : Cause}
    (h : stops nodes path cause) : FailsAtRaw nodes (fail cause path : Except Fault α) := by
  obtain ⟨hplaces, expression, hraw, hrejected⟩ := h
  refine ⟨path, expression, cause, hraw, hrejected, ?_⟩
  rw [fail, Cause.IsOfValue.quotes_eq_nil (.inr hrejected.1)]
  cases hwritable : Value.areWritable path with
  | true => exact .inl rfl
  | false => exact .inr ⟨rfl, exists_index_of_not_areWritable hplaces hwritable⟩

/-- With raw expressions checked, a forest compiles to the same or fails with the same fault, unless
one of the raw expressions in it is turned down. -/
theorem compile_eq_or_failsAtRaw (format : Format) (nodes : List Value) :
    compile { format with validate := true } nodes =
        compile { format with validate := false } nodes ∨
      FailsAtRaw nodes (compile { format with validate := true } nodes) := by
  have hfiltered : Filtered [] (stops nodes) (compile { format with validate := false } nodes)
      (compile { format with validate := true } nodes) :=
    (filtered_blockTexts format nodes).map _
  refine hfiltered.eq_or_exists.imp_right ?_
  rintro ⟨path, cause, hstops, hon⟩
  rw [hon]
  exact failsAtRaw_of_stops hstops

/-- **Checking raw expressions is a filter.** A forest compiles with raw expressions checked exactly
when it compiles without and the check accepts every raw expression in it, and then to the same
text. Otherwise it fails with the same fault, or with the path to one of its raw expressions and the
cause why that is turned down. -/
theorem compile_validate (format : Format) (nodes : List Value) :
    let off := compile { format with validate := false } nodes
    let on := compile { format with validate := true } nodes
    (∀ text, on = .ok text ↔ off = .ok text ∧ ∀ path expression, HasRaw nodes path expression →
      ∃ s, Expression.check expression [] = .ok s) ∧
    (on = off ∨ FailsAtRaw nodes on) := by
  intro off on
  have hends : on = off ∨ FailsAtRaw nodes on := compile_eq_or_failsAtRaw format nodes
  refine ⟨fun text => ⟨fun hon => ⟨?_, ?_⟩, ?_⟩, hends⟩
  · rcases hends with heq | ⟨_, _, _, _, _, herror | ⟨herror, -⟩⟩
    · rw [← heq, hon]
    · rw [hon] at herror
      cases herror
    · rw [hon] at herror
      cases herror
  · intro path expression hraw
    exact accepts_of_hasRaw rfl hraw (exists_compile_iff.mp ⟨text, hon⟩)
  · rintro ⟨hoff, haccepts⟩
    rcases hends with heq | ⟨path, expression, _, hraw, ⟨_, hcheck⟩, _⟩
    · rw [heq, hoff]
    · obtain ⟨s, hs⟩ := haccepts path expression hraw
      rw [hs] at hcheck
      cases hcheck

/-- The path of the error leads to the raw expression in the second item of a list. -/
example : compile { validate := true }
    [.block (.list [.text "a"]) (.mapping [(.text "x", .list [.null, .raw (.text "f(")])]) .null] =
      .error (.compile ⟨.missingCloser ')' "f(", [.text "a", .text "x", .int 1]⟩) := by
  rfl

end Document

end Stanza
