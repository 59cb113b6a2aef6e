import Stanza.Proofs.Block.Context
import Stanza.Proofs.Fault.Path
import Stanza.Proofs.Layout.Opening

/-!
Leaves in the attributes of a forest.

A `Block.Opening` is a block with one place left open in the value of an attribute, be it its own or
that of a block in it. Whatever leaf is put there, the lines of the block have its text in one of
them, and nothing else in them depends on it (`Block.Opening.opens_lines`). So in the document of a
forest the text of the leaf, which is what it is encoded as by itself, stands between two texts that
do not depend on it: `Document.compile_opening`.

Nor does the leaf decide about anything else that can fail: a value is encoded when every part of it
is (`Value.encodes_value_iff`, `Value.encodes_mapping_iff`), and a block compiles when it does
without its attributes and each of these does (`Block.compiles_mapping_iff`).
-/

namespace Stanza

/-! ### Values that are encoded -/

namespace Value

section Encoded

variable {style : Style} {path : Path} {index : Nat} {v : Value}

/-- A value is encoded. -/
def Encodes (style : Style) (v : Value) : Prop := ∃ r, v.encode style [] = .ok r

/-- A value is encoded when it is read as a node and rendered. -/
theorem encodes_iff :
    Encodes style v ↔ (∃ node, v.toNode [] = .ok node) ∧ ∃ r, v.render style [] = .ok r := by
  cases hnode : v.toNode [] <;>
    simp [Encodes, encode, hnode, bind, Except.bind]

theorem exists_toNode_iff :
    (∃ node, v.toNode path = .ok node) ↔ ∃ node, v.toNode [] = .ok node := by
  constructor
  · rintro ⟨node, h⟩
    obtain ⟨other, hother, -⟩ := (alike_toNode (.refl path []) v).exists_ok h
    exact ⟨other, hother⟩
  · rintro ⟨node, h⟩
    obtain ⟨other, hother, -⟩ := (alike_toNode (.refl [] path) v).exists_ok h
    exact ⟨other, hother⟩

/-- Where a value is rendered, it is rendered alike elsewhere. -/
theorem render_eq_ok_iff {r : Rendered} :
    v.render style path = .ok r ↔ v.render style [] = .ok r := by
  have hsame : ∀ p q : Path, v.render style p = .ok r → v.render style q = .ok r := by
    intro p q h
    have halike := alike_render rfl (fun _ => rfl : Tied True style style) (.refl p q) v
    obtain ⟨other, hother, hr⟩ := halike.exists_ok h
    rw [hother, hr trivial]
  exact ⟨hsame _ _, hsame _ _⟩

theorem exists_toNodes_iff {items : List Value} :
    (∃ nodes, toNodes path index items = .ok nodes) ↔
      ∀ item ∈ items, ∃ node, item.toNode [] = .ok node := by
  induction items generalizing index with
  | nil => simp [toNodes]
  | cons item rest ih =>
    rw [toNodes, exists_bind_eq_ok_iff, exists_toNode_iff, ih, List.forall_mem_cons]

theorem exists_renderItems_iff {items : List Value} :
    (∃ rs, renderItems style path index items = .ok rs) ↔
      ∀ item ∈ items, ∃ r, item.render style [] = .ok r := by
  induction items generalizing index with
  | nil => simp [renderItems]
  | cons item rest ih =>
    rw [renderItems, exists_bind_eq_ok_iff, ih, List.forall_mem_cons]
    simp only [render_eq_ok_iff]

/-- A row of values is encoded when each of them is. -/
theorem encodes_value_iff (row : Row) (items : List Value) :
    Encodes style (row.value items) ↔ ∀ item ∈ items, Encodes style item := by
  have hrender : (∃ r, (row.value items).render style [] = .ok r) ↔
      (∀ item ∈ items, ∃ node, item.toNode [] = .ok node) ∧
        ∀ item ∈ items, ∃ r, item.render style [] = .ok r := by
    rw [← @exists_toNodes_iff [] 0, ← @exists_renderItems_iff _ [] 0]
    cases row <;> exact exists_bind_eq_ok_iff
  have hnode : (∀ item ∈ items, ∃ node, item.toNode [] = .ok node) →
      ∃ node, (row.value items).toNode [] = .ok node := by
    intro h
    rw [← @exists_toNodes_iff [] 0] at h
    cases row with
    | list => exact exists_map_eq_ok_iff.mpr h
    | tuple => exact exists_map_eq_ok_iff.mpr h
    | sequence => exact ⟨_, rfl⟩
  simp only [encodes_iff, hrender, forall_and]
  exact ⟨fun h => h.2, fun h => ⟨hnode h.1, h⟩⟩

theorem exists_entriesToNodes_iff {entries : Entries} :
    (∃ nodes, entriesToNodes path entries = .ok nodes) ↔
      ∀ entry ∈ entries, ∃ node, entry.2.toNode [] = .ok node := by
  induction entries with
  | nil => simp [entriesToNodes]
  | cons entry rest ih =>
    rw [entriesToNodes, exists_bind_eq_ok_iff, exists_toNode_iff, ih, List.forall_mem_cons]

/-- Where a value is encoded, it is encoded alike elsewhere. -/
theorem encode_eq_ok_iff {r : Rendered} :
    v.encode style path = .ok r ↔ v.encode style [] = .ok r := by
  unfold encode
  rw [bind_eq_ok_iff, bind_eq_ok_iff, exists_and_right, exists_and_right, exists_toNode_iff,
    render_eq_ok_iff]

theorem exists_renderEntries_iff {keys : List (List Char)} {entries : Entries} :
    (∃ assignments, renderEntries style path keys entries = .ok assignments) ↔
      ∀ entry ∈ entries, Encodes style entry.2 := by
  induction entries generalizing keys with
  | nil => simp [renderEntries]
  | cons entry rest ih =>
    rw [renderEntries_cons, exists_bind_eq_ok_iff, ih, List.forall_mem_cons]
    simp only [encode_eq_ok_iff, Encodes]

/-- An object is encoded when its keys are names and each of its values is encoded. -/
theorem encodes_object_iff (entries : Entries) :
    Encodes style (.object entries) ↔
      (∃ keys, objectKeyTexts [] entries = .ok keys) ∧
        ∀ entry ∈ entries, Encodes style entry.2 := by
  have hnode : ∃ node, (Value.object entries).toNode [] = .ok node := ⟨_, rfl⟩
  rw [encodes_iff, render]
  constructor
  · rintro ⟨-, r, h⟩
    obtain ⟨keys, hkeys, h⟩ := bind_eq_ok_iff.mp h
    exact ⟨⟨keys, hkeys⟩, exists_renderEntries_iff.mp (exists_map_eq_ok_iff.mp ⟨r, h⟩)⟩
  · rintro ⟨⟨keys, hkeys⟩, hvalues⟩
    obtain ⟨assignments, hassignments⟩ := exists_renderEntries_iff.mpr hvalues
    exact ⟨hnode, _, bind_eq_ok_iff.mpr ⟨keys, hkeys,
      bind_eq_ok_iff.mpr ⟨assignments, hassignments, rfl⟩⟩⟩

/-- A mapping that is no marker is encoded when it is as an object. -/
theorem encodes_mapping_iff {entries : Entries} (h : Marker.ofEntries? entries = none) :
    Encodes style (.mapping entries) ↔ Encodes style (.object entries) := by
  have hrender : (Value.mapping entries).render style [] =
      (Value.object entries).render style [] := by
    rw [render, render, h]
  have hnode : (∀ entry ∈ entries, Encodes style entry.2) →
      ∃ node, (Value.mapping entries).toNode [] = .ok node := by
    intro hvalues
    rw [toNode, h]
    refine exists_map_eq_ok_iff.mpr (exists_entriesToNodes_iff.mpr fun entry hentry => ?_)
    exact (encodes_iff.mp (hvalues entry hentry)).1
  rw [encodes_iff, hrender]
  constructor
  · rintro ⟨-, h⟩
    exact encodes_iff.mpr ⟨⟨_, rfl⟩, h⟩
  · intro hobject
    exact ⟨hnode ((encodes_object_iff entries).mp hobject).2, (encodes_iff.mp hobject).2⟩

theorem objectKeyTexts_congr {entries others : Entries}
    (h : entries.map Prod.fst = others.map Prod.fst) :
    objectKeyTexts path entries = objectKeyTexts path others := by
  have hkeys : ∀ entries : Entries, objectKeyTexts path entries =
      (entries.map Prod.fst).mapM (objectKeyText path) := by
    intro entries
    rw [objectKeyTexts_eq_mapM, List.mapM_map]
    rfl
  rw [hkeys, hkeys, h]

/-- A value is encoded when the leaf in its open place is and nothing else in it is at fault. -/
theorem Opening.encodes_fill_iff (opening : Opening) :
    Encodes style (opening.fill v) ↔ Encodes style (opening.fill .null) ∧ Encodes style v := by
  have hentries : ∀ (above below : Entries) (key : Value) (inner : Opening),
      (Encodes style (inner.fill v) ↔ Encodes style (inner.fill .null) ∧ Encodes style v) →
      (Encodes style (.object (above ++ (key, inner.fill v) :: below)) ↔
        Encodes style (.object (above ++ (key, inner.fill .null) :: below)) ∧
          Encodes style v) := by
    intro above below key inner ih
    have hkeys : objectKeyTexts [] (above ++ (key, inner.fill v) :: below) =
        objectKeyTexts [] (above ++ (key, inner.fill .null) :: below) :=
      objectKeyTexts_congr (by simp)
    simp only [encodes_object_iff, hkeys, List.forall_mem_append, List.forall_mem_cons, ih]
    tauto
  induction opening with
  | whole =>
    have hnull : Encodes style .null := ⟨_, rfl⟩
    exact ⟨fun h => ⟨hnull, h⟩, fun h => h.2⟩
  | item row before inner after ih =>
    simp only [fill, encodes_value_iff, List.forall_mem_append, List.forall_mem_cons, ih]
    tauto
  | entry above key inner below apart ih =>
    rw [fill, fill, encodes_mapping_iff (apart _), encodes_mapping_iff (apart _)]
    exact hentries above below key inner ih
  | field above key inner below ih => exact hentries above below key inner ih

end Encoded

end Value

/-! ### Blocks with an opening -/

namespace Block

/-- A block with a place left open in the value of an attribute. -/
inductive Opening where
  /-- The place is in an attribute of the block. -/
  | here (blockPath : Value) (above : Entries) (key : Value) (inner : Value.Opening)
      (below : Entries) (children : Value)
  /-- The place is in one of the blocks in the block. -/
  | inside (blockPath attributes : Value) (row : Value.Row) (before : List Value)
      (inner : Opening) (after : List Value)

/-- The block with a value in the open place. -/
def Opening.fill (v : Value) : Opening → Value
  | .here blockPath above key inner below children =>
      .block blockPath (.mapping (above ++ (key, inner.fill v) :: below)) children
  | .inside blockPath attributes row before inner after =>
      .block blockPath attributes (row.value (before ++ inner.fill v :: after))

section Compiles

variable {style : Style} {path : Path} {v : Value}

/-- Children in a row are those of a list, or of a kind that children are not given in. -/
theorem lines_block_value (style : Style) (path : Path) (row : Value.Row)
    (blockPath attributes : Value) :
    (∀ children, lines style path (.block blockPath attributes (row.value children)) =
        lines style path (.block blockPath attributes (.list children))) ∨
      ∀ children ls, lines style path (.block blockPath attributes (row.value children)) ≠
        .ok ls := by
  cases row with
  | list => exact .inl fun _ => rfl
  | tuple =>
    refine .inl fun children => ?_
    simp only [lines, Value.Row.value, childLines, checkChildren, areChildren, if_true]
  | sequence =>
    refine .inr fun children ls h => ?_
    obtain ⟨_, _, _, _, _, -, -, hrow, -⟩ := lines_block_eq_ok_iff.mp h
    simp [Value.Row.value, areChildren] at hrow

theorem exists_childLines_iff {follows : Bool} {children : Value} :
    (∃ ls, childLines style path follows children = .ok ls) ↔
      ∃ ls, childLines style [] false children = .ok ls := by
  have hsame : ∀ (p q : Path) (follows other : Bool),
      (∃ ls, childLines style p follows children = .ok ls) →
        ∃ ls, childLines style q other children = .ok ls := by
    rintro p q follows other ⟨ls, h⟩
    obtain ⟨others, hothers, -⟩ := (alike_childLines rfl (fun _ => rfl : Tied False style style)
      (.refl p q) (False.elim : Tied False follows other) children).exists_ok h
    exact ⟨others, hothers⟩
  exact ⟨hsame _ _ _ _, hsame _ _ _ _⟩

/-- The names of attributes are identifiers and their values are encoded. -/
theorem exists_ofEntries_iff {entries : Entries} :
    (∃ rs, Attributes.ofEntries style path entries = .ok rs) ↔
      (∃ names, Attributes.nameTexts [] entries = .ok names) ∧
        ∀ entry ∈ entries, Value.Encodes style entry.2 := by
  constructor
  · rintro ⟨rs, h⟩
    obtain ⟨names, hnames, h⟩ := bind_eq_ok_iff.mp h
    obtain ⟨others, hothers, -⟩ :=
      (Attributes.alike_nameTexts (.refl path []) entries).exists_ok hnames
    exact ⟨⟨others, hothers⟩, Value.exists_renderEntries_iff.mp (exists_map_eq_ok_iff.mp ⟨rs, h⟩)⟩
  · rintro ⟨⟨names, hnames⟩, hvalues⟩
    obtain ⟨others, hothers, -⟩ :=
      (Attributes.alike_nameTexts (.refl [] path) entries).exists_ok hnames
    obtain ⟨assignments, hassignments⟩ := Value.exists_renderEntries_iff.mpr hvalues
    exact ⟨_, bind_eq_ok_iff.mpr ⟨others, hothers,
      bind_eq_ok_iff.mpr ⟨assignments, hassignments, rfl⟩⟩⟩

/-- A block compiles when its path and its children do and its attributes do, each by itself. -/
theorem compiles_mapping_iff {blockPath children : Value} {entries : Entries} :
    Compiles style (.block blockPath (.mapping entries) children) ↔
      ((∃ found, header [] blockPath = .ok found) ∧ areChildren children ∧
        ∃ ls, childLines style [] false children = .ok ls) ∧
      (∃ names, Attributes.nameTexts [] entries = .ok names) ∧
        ∀ entry ∈ entries, Value.Encodes style entry.2 := by
  rw [← @exists_ofEntries_iff _ []]
  constructor
  · rintro ⟨ls, h⟩
    obtain ⟨found, address, _, rs, nested, hheader, hentries, hrow, hrs, hnested, -⟩ :=
      lines_block_eq_ok_iff.mp h
    obtain rfl := Except.ok.inj hentries
    exact ⟨⟨⟨_, hheader⟩, hrow, exists_childLines_iff.mp ⟨nested, hnested⟩⟩,
      exists_ofEntries_iff.mpr (exists_ofEntries_iff.mp ⟨rs, hrs⟩)⟩
  · rintro ⟨⟨⟨⟨found, address⟩, hheader⟩, hrow, hchildren⟩, hvalues⟩
    obtain ⟨rs, hrs⟩ := exists_ofEntries_iff.mpr (exists_ofEntries_iff.mp hvalues)
    obtain ⟨nested, hnested⟩ := exists_childLines_iff.mpr hchildren
    exact ⟨_, lines_block_eq_ok_iff.mpr
      ⟨found, address, entries, rs, nested, hheader, rfl, hrow, hrs, hnested, rfl⟩⟩

/-- A block compiles when the leaf in its open place is encoded and nothing else in it is at
fault. -/
theorem Opening.compiles_fill_iff (opening : Opening) :
    Compiles style (opening.fill v) ↔
      Compiles style (opening.fill .null) ∧ Value.Encodes style v := by
  induction opening with
  | here blockPath above key inner below children =>
    have hnames : Attributes.nameTexts [] (above ++ (key, inner.fill v) :: below) =
        Attributes.nameTexts [] (above ++ (key, inner.fill .null) :: below) :=
      Attributes.nameTexts_congr (by simp)
    simp only [fill, compiles_mapping_iff, hnames, List.forall_mem_append, List.forall_mem_cons,
      inner.encodes_fill_iff (v := v)]
    tauto
  | inside blockPath attributes row before inner after ih =>
    rcases lines_block_value style [] row blockPath attributes with hlist | hnever
    · have hrow : ∀ children, Compiles style (.block blockPath attributes (row.value children)) ↔
          Compiles style (.block blockPath attributes (.list [])) ∧
            ∀ child ∈ children, Compiles style child := by
        intro children
        rw [← compiles_block_iff, Compiles, hlist, Compiles]
      simp only [fill, hrow, List.forall_mem_append, List.forall_mem_cons, ih]
      tauto
    · constructor
      · rintro ⟨ls, h⟩
        exact absurd h (hnever _ ls)
      · rintro ⟨⟨ls, h⟩, -⟩
        exact absurd h (hnever _ ls)

end Compiles

/-! ### The lines of a block with an opening -/

section Lines

variable {style : Style} {allowed : List Char → Prop}

/-- **Leaves are opaque.** The lines of a block have the text of the leaf in the open place in one
of them, and nothing else in them depends on that text. -/
theorem Opening.opens_lines (hsteady : Steady style allowed) (opening : Opening) (path : Path) :
    ∃ written, Opens allowed written ∧ ∀ v text ls, v.shape = .leaf text → allowed text →
      lines style path (opening.fill v) = .ok ls → ls = written text := by
  induction opening generalizing path with
  | here blockPath above key inner below children =>
    obtain ⟨⟨found, address⟩, hfound⟩ := exists_eq_of_ok (header path blockPath)
    let here := path ++ [.text address]
    obtain ⟨nested, hnested⟩ := exists_eq_of_ok (childLines style here true children)
    let body := fun text => (Assignment.renderAll style (Shape.layoutEntries style
      (Value.entryShapes above) ++ ⟨key.keyChars, (inner.shape text).layout style⟩ ::
        Shape.layoutEntries style (Value.entryShapes below))).flatMap Rendered.lines
    have hbody : Opens allowed body := Opens.assignments hsteady (inner.opens_layout hsteady) _ _ _
    refine ⟨fun text => enclosed found (body text) nested, ?_, fun v text ls hleaf htext h => ?_⟩
    · exact (hbody.wrap [] nested).enclose (.code 0 (found ++ [' ', '\x7b'])) (.code 0 ['\x7d'])
    · obtain ⟨_, _, _, rs, _, hheader, hentries, -, hrs, hchildren, rfl⟩ :=
        lines_block_eq_ok_iff.mp h
      obtain ⟨rfl, rfl⟩ := Prod.mk.inj (hfound _ hheader)
      obtain rfl := Except.ok.inj hentries
      have hrendered : rs.flatMap Rendered.lines = body text := by
        rw [(Attributes.ofEntries_eq_ok hrs).2, Value.entryShapes_append, Value.entryShapes,
          Value.Opening.shape_fill hleaf, Shape.layoutEntries_append, Shape.layoutEntries]
      have hfollows : (!(rs.flatMap Rendered.lines).isEmpty) = true := by
        obtain ⟨_, _, _, _, _, hlines⟩ := hbody
        simp [hrendered, hlines text htext]
      rw [hfollows] at hchildren
      obtain rfl := hnested _ hchildren
      rw [hrendered]
  | inside blockPath attributes row before inner after ih =>
    rcases lines_block_value style path row blockPath attributes with hlist | hnever
    · obtain ⟨⟨found, address⟩, hfound⟩ := exists_eq_of_ok (header path blockPath)
      let here := path ++ [.text address]
      obtain ⟨entries, hentries⟩ := exists_eq_of_ok (attributeEntries here attributes)
      obtain ⟨rs, hrs⟩ := exists_eq_of_ok (Attributes.ofEntries style here entries)
      let body := rs.flatMap Rendered.lines
      let follows := !body.isEmpty
      obtain ⟨above, habove⟩ := exists_eq_of_ok (itemLines style here follows before)
      obtain ⟨below, hbelow⟩ := exists_eq_of_ok (itemLines style here true after)
      obtain ⟨written, hwritten, hlines⟩ := ih here
      let nested := fun text =>
        above ++ separator style (follows || !before.isEmpty) ++ written text ++ below
      refine ⟨fun text => enclosed found body (nested text), ?_, fun v text ls hleaf htext h => ?_⟩
      · have hnested := (hwritten.wrap (above ++ separator style (follows || !before.isEmpty))
          below).wrap body []
        refine (hnested.enclose (.code 0 (found ++ [' ', '\x7b'])) (.code 0 ['\x7d'])).congr ?_
        intro text _
        simp [enclosed, nested]
      · rw [fill, hlist] at h
        obtain ⟨_, _, _, _, _, hheader, hattributes, -, hrendered, hrow, rfl⟩ :=
          lines_block_eq_ok_iff.mp h
        obtain ⟨rfl, rfl⟩ := Prod.mk.inj (hfound _ hheader)
        obtain rfl := hentries _ hattributes
        obtain rfl := hrs _ hrendered
        rw [childLines, itemLines_append_cons] at hrow
        obtain ⟨_, hbefore, hrow⟩ := bind_eq_ok_iff.mp hrow
        obtain rfl := habove _ hbefore
        obtain ⟨_, hinner, hrow⟩ := bind_eq_ok_iff.mp hrow
        obtain rfl := hlines v text _ hleaf htext hinner
        obtain ⟨_, hafter, hrow⟩ := bind_eq_ok_iff.mp hrow
        obtain rfl := hbelow _ hafter
        obtain rfl := Except.ok.inj hrow
        rfl
    · exact ⟨fun text => [.code 0 text], .leaf, fun v text ls _ _ h => absurd h (hnever _ ls)⟩

end Lines

end Block

/-! ### Leaves in a document -/

namespace Value

variable {style : Style} {path : Path} {v : Value} {text : List Char}

/-- A raw expression, given as a node or by a marker. -/
def IsRaw (s : String) (v : Value) : Prop :=
  v = .raw (.text s) ∨ v = .mapping [(.text Marker.raw.name, .text s)]

theorem IsRaw.shape_eq {s : String} (h : v.IsRaw s) : v.shape = .leaf s.toList := by
  rcases h with rfl | rfl
  · rfl
  · rfl

/-- A leaf is encoded as its text. -/
theorem eq_inline_of_encode {r : Rendered} (hleaf : v.shape = .leaf text)
    (h : v.encode style path = .ok r) : r = .inline text := by
  obtain ⟨_, -, h⟩ := bind_eq_ok_iff.mp h
  rw [(render_eq_ok h).2, hleaf, Shape.layout]

end Value

namespace Document

open Block

variable {allowed : List Char → Prop} {written : List Char → List Line}

/-- The opening of a block in a document. -/
theorem exists_frame_of_opens (h : Opens allowed written) (format : Format)
    (before after : List Value) :
    ∃ front back, ∀ node text own, allowed own →
      (∀ ls, lines format.toStyle [] node = .ok ls → ls = written own) →
      compile format (before ++ node :: after) = .ok text → text = front ++ own ++ back := by
  obtain ⟨above, depth, front, back, below, hlines⟩ := h
  obtain ⟨texts, htexts⟩ := exists_eq_of_ok (blockTexts format before)
  obtain ⟨more, hmore⟩ := exists_eq_of_ok (blockTexts format after)
  let write := Line.write format.indentWidth 0
  refine ⟨texts.flatMap (· ++ ['\n', '\n']) ++ ((above.map write).flatMap (· ++ ['\n']) ++
      (indent format.indentWidth (0 + depth) ++ front)),
    back ++ (below.map write).flatMap (['\n'] ++ ·) ++
      (more.flatMap (['\n', '\n'] ++ ·) ++ ['\n']), fun node text own hown hnode hcompile => ?_⟩
  obtain ⟨_, hall, hcompile⟩ := bind_eq_ok_iff.mp hcompile
  rw [blockTexts_append_cons] at hall
  obtain ⟨_, hbefore, hall⟩ := bind_eq_ok_iff.mp hall
  obtain rfl := htexts _ hbefore
  obtain ⟨_, hblock, hall⟩ := bind_eq_ok_iff.mp hall
  obtain ⟨ls, hls, hblock⟩ := bind_eq_ok_iff.mp hblock
  obtain rfl := Except.ok.inj hblock
  obtain ⟨_, hafter, hall⟩ := bind_eq_ok_iff.mp hall
  obtain rfl := hmore _ hafter
  obtain rfl := Except.ok.inj hall
  obtain rfl := Except.ok.inj hcompile
  rw [hnode ls hls, hlines own hown]
  simp [assemble, Line.writeAll, joined_append_cons, Line.write, write]

/-- **What a leaf says decides about nothing around it.** For every place in the value of an
attribute, at any depth and not in a marker, there are two texts between which every leaf that is
put there is written as it is encoded by itself, if that has no line feed or equals signs do not
line up; a raw expression is written as it stands. And the forest compiles with the leaf exactly when the
leaf is encoded and the forest compiles with `null` in its place. -/
theorem compile_opening (format : Format) (before after : List Value) (opening : Opening) :
    ∃ front back, ∀ v, v.isInline →
      ((∃ text, compile format (before ++ opening.fill v :: after) = .ok text) ↔
        (∃ text, compile format (before ++ opening.fill .null :: after) = .ok text) ∧
          ∃ own, v.encode format.toStyle [] = .ok (.inline own)) ∧
      ∀ text own, compile format (before ++ opening.fill v :: after) = .ok text →
        v.encode format.toStyle [] = .ok (.inline own) →
        (∀ s, v.IsRaw s → own = s.toList) ∧
          ('\n' ∉ own ∨ format.alignEquals = false → text = front ++ own ++ back) := by
  let allowed := fun own : List Char => '\n' ∉ own ∨ format.alignEquals = false
  have hsteady : Steady format.toStyle allowed := by
    intro halign
    refine ⟨false, fun own hown => ?_⟩
    rcases hown with hown | hown
    · simpa using hown
    · simp [halign] at hown
  obtain ⟨written, hopens, hlines⟩ := opening.opens_lines hsteady []
  obtain ⟨front, back, hframe⟩ := exists_frame_of_opens hopens format before after
  refine ⟨front, back, fun v hinline => ?_⟩
  obtain ⟨own, hleaf⟩ := Value.exists_shape_eq_leaf hinline
  have hencodes : Value.Encodes format.toStyle v ↔
      ∃ own, v.encode format.toStyle [] = .ok (.inline own) := by
    constructor
    · rintro ⟨r, h⟩
      obtain rfl := Value.eq_inline_of_encode hleaf h
      exact ⟨own, h⟩
    · rintro ⟨own, h⟩
      exact ⟨_, h⟩
  constructor
  · rw [exists_compile_iff, exists_compile_iff, List.forall_mem_append, List.forall_mem_append,
      List.forall_mem_cons, List.forall_mem_cons, opening.compiles_fill_iff, hencodes]
    tauto
  · intro text own' hcompile hencode
    obtain rfl : own' = own := by
      simpa [Rendered.inline] using Value.eq_inline_of_encode hleaf hencode
    refine ⟨fun s hraw => ?_, fun hown => ?_⟩
    · rw [hraw.shape_eq] at hleaf
      exact (Shape.leaf.inj hleaf).symm
    · exact hframe _ text own' hown (fun ls hls => hlines v own' ls hleaf hown hls) hcompile

end Document

end Stanza
