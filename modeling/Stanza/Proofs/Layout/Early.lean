import Stanza.Proofs.Block.Opening

/-!
Values that are read as nodes early.

The encoder reads a value as a node when it comes to it. An author may do so before, for the whole
value or for parts of it, or build the list or the object around parts that are left as they are:
`Value.Early`. It makes no difference when it is done. A node has the shape of the value it is read
from, and is encoded as that is (`Value.sameForm_of_toNode`); rows and objects around values of the
same form have the same form. So the text is the same: `Value.Early.encodedText_eq_ok_iff`.
-/

namespace Stanza

namespace Value

/-- A value that stands under a key, and the one that replaces it. -/
structure Exchange where
  key : Value
  before : Value
  after : Value

namespace Exchange

/-- The entry before the exchange. -/
def old (e : Exchange) : Value × Value := (e.key, e.before)

/-- The entry after the exchange. -/
def new (e : Exchange) : Value × Value := (e.key, e.after)

end Exchange

/-- The second value is the first one with parts of it read as nodes before the encoder does so. A
marker is read as a whole or stays as it is. -/
inductive Early : Value → Value → Prop where
  | refl (v : Value) : Early v v
  /-- The value is read as a node, with all that is in it. -/
  | node {v node : Value} {path : Path} : v.toNode path = .ok node → Early v node
  /-- The items of a row are exchanged for others. -/
  | row (row : Row) {pairs : List (Value × Value)} :
      (∀ pair ∈ pairs, Early pair.1 pair.2) →
      Early (row.value (pairs.map Prod.fst)) (row.value (pairs.map Prod.snd))
  /-- A list is built around what the items of a row are exchanged for. -/
  | sequence (row : Row) {pairs : List (Value × Value)} :
      (∀ pair ∈ pairs, Early pair.1 pair.2) →
      Early (row.value (pairs.map Prod.fst)) (.sequence (pairs.map Prod.snd))
  /-- The values of a mapping are exchanged for others. -/
  | mapping {exchanges : List Exchange} :
      Marker.ofEntries? (exchanges.map Exchange.old) = none →
      (∀ e ∈ exchanges, Early e.before e.after) →
      Early (.mapping (exchanges.map Exchange.old)) (.mapping (exchanges.map Exchange.new))
  /-- An object is built around what the values of a mapping are exchanged for. -/
  | object {exchanges : List Exchange} :
      Marker.ofEntries? (exchanges.map Exchange.old) = none →
      (∀ e ∈ exchanges, Early e.before e.after) →
      Early (.mapping (exchanges.map Exchange.old)) (.object (exchanges.map Exchange.new))

/-- The text of a value that is written at a level. -/
def encodedText (format : Format) (path : Path) (level : Int) (v : Value) :
    Except Fault (List Char) := do
  return (← v.encode format.toStyle path).write format.indentWidth level

/-! ### Values of the same form -/

/-- Two values of one shape, of which the one is encoded when the other is. -/
structure SameForm (v w : Value) : Prop where
  shape : w.shape = v.shape
  encodes (style : Style) : Encodes style w ↔ Encodes style v

variable {v w u node payload : Value} {path : Path} {style : Style} {entries : Entries}
  {pairs : List (Value × Value)} {exchanges : List Exchange}

theorem SameForm.refl (v : Value) : SameForm v v := ⟨rfl, fun _ => .rfl⟩

theorem SameForm.symm (h : SameForm v w) : SameForm w v :=
  ⟨h.shape.symm, fun style => (h.encodes style).symm⟩

theorem SameForm.trans (h : SameForm v w) (hnext : SameForm w u) : SameForm v u :=
  ⟨hnext.shape.trans h.shape, fun style => (hnext.encodes style).trans (h.encodes style)⟩

/-- What a value is encoded as is the layout of its shape. -/
theorem encode_eq_ok_iff_layout {r : Rendered} :
    v.encode style path = .ok r ↔ Encodes style v ∧ r = v.shape.layout style := by
  rw [encode_eq_ok_iff]
  have hlayout : ∀ r, v.encode style [] = .ok r → r = v.shape.layout style := by
    intro r h
    obtain ⟨node, -, hrender⟩ := bind_eq_ok_iff.mp h
    exact (render_eq_ok hrender).2
  constructor
  · intro h
    exact ⟨⟨r, h⟩, hlayout r h⟩
  · rintro ⟨⟨other, h⟩, rfl⟩
    rw [h, hlayout other h]

/-- Values of the same form are encoded as the same. -/
theorem SameForm.encode_eq_ok_iff (h : SameForm v w) {r : Rendered} :
    w.encode style path = .ok r ↔ v.encode style path = .ok r := by
  rw [encode_eq_ok_iff_layout, encode_eq_ok_iff_layout, h.encodes, h.shape]

/-- Values of one shape that are encoded alike at some path have the same form. -/
theorem SameForm.of_encode (path : Path) (hshape : w.shape = v.shape)
    (h : ∀ style, w.encode style path = v.encode style path) : SameForm v w := by
  refine ⟨hshape, fun style => ?_⟩
  have hthere : ∀ u : Value, Encodes style u ↔ ∃ r, u.encode style path = .ok r := by
    intro u
    exact exists_congr fun _ => Value.encode_eq_ok_iff.symm
  rw [hthere, hthere, h]

/-- The row that values stand in makes no difference, and neither does their form. -/
theorem sameForm_row (row other : Row) (h : ∀ pair ∈ pairs, SameForm pair.1 pair.2) :
    SameForm (row.value (pairs.map Prod.fst)) (other.value (pairs.map Prod.snd)) := by
  constructor
  · rw [Row.shape_value, Row.shape_value, List.map_map, List.map_map]
    exact congrArg Shape.list (List.map_congr_left fun pair hpair => (h pair hpair).shape)
  · intro style
    rw [encodes_value_iff, encodes_value_iff, List.forall_mem_map, List.forall_mem_map]
    exact forall₂_congr fun pair hpair => (h pair hpair).encodes style

theorem keys_exchanged (exchanges : List Exchange) :
    (exchanges.map Exchange.new).map Prod.fst = (exchanges.map Exchange.old).map Prod.fst := by
  simp [Exchange.old, Exchange.new]

theorem entryShapes_exchanged (h : ∀ e ∈ exchanges, SameForm e.before e.after) :
    entryShapes (exchanges.map Exchange.new) = entryShapes (exchanges.map Exchange.old) := by
  induction exchanges with
  | nil => rfl
  | cons e rest ih =>
    obtain ⟨hfirst, hrest⟩ := List.forall_mem_cons.mp h
    simp only [List.map_cons, Exchange.old, Exchange.new, entryShapes, hfirst.shape]
    exact congrArg _ (ih hrest)

/-- The form of the values under its keys is all that an object depends on. -/
theorem sameForm_object (h : ∀ e ∈ exchanges, SameForm e.before e.after) :
    SameForm (.object (exchanges.map Exchange.old)) (.object (exchanges.map Exchange.new)) := by
  constructor
  · rw [shape, shape, entryShapes_exchanged h]
  · intro style
    rw [encodes_object_iff, encodes_object_iff, objectKeyTexts_congr (keys_exchanged exchanges),
      List.forall_mem_map, List.forall_mem_map]
    exact and_congr_right fun _ => forall₂_congr fun e he => (h e he).encodes style

/-- A mapping that is no marker has the form of the object with its entries. -/
theorem sameForm_mapping (h : Marker.ofEntries? entries = none) :
    SameForm (.mapping entries) (.object entries) := by
  constructor
  · simp only [shape, h]
  · intro style
    exact (encodes_mapping_iff h).symm

/-- Whether a mapping is a marker is a matter of its keys. -/
theorem ofEntries?_exchanged (h : Marker.ofEntries? (exchanges.map Exchange.old) = none) :
    Marker.ofEntries? (exchanges.map Exchange.new) = none := by
  cases hnew : Marker.ofEntries? (exchanges.map Exchange.new) with
  | none => rfl
  | some found =>
    obtain ⟨marker, payload⟩ := found
    obtain ⟨e, rfl, hentry⟩ := List.map_eq_singleton_iff.mp (Marker.ofEntries?_eq_some hnew)
    obtain ⟨hkey, -⟩ := Prod.mk.inj hentry
    have hold : Marker.ofEntries? [e.old] = some (marker, e.before) := by
      rw [Exchange.old, hkey, Marker.ofEntries?, Marker.ofName?_name]
      rfl
    rw [List.map_singleton, hold] at h
    cases h

/-! ### A node has the form of what it is read from -/

/-- The node of a marker is what the marker stands for. -/
theorem markerToNode_eq_ok {marker : Marker} (h : marker.toNode path payload = .ok node) :
    node = marker.node payload := by
  rcases Marker.toNode_eq_ok h with ⟨rfl, -, rfl⟩ | ⟨rfl, -, rfl⟩ | ⟨segments, rfl, hsegments, rfl⟩
  · rfl
  · rfl
  · rw [markerSegments_eq_ok hsegments]
    rfl

mutual

/-- A node has the shape of the value that it is read from. -/
theorem shape_of_toNode {path : Path} {v node : Value} (h : v.toNode path = .ok node) :
    node.shape = v.shape := by
  match v with
  | .list items | .tuple items =>
    obtain ⟨nodes, hnodes, h⟩ := bind_eq_ok_iff.mp h
    cases h
    rw [shape, shape, itemShapes_of_toNodes hnodes]
  | .mapping entries =>
    rw [toNode] at h
    rw [shape]
    cases hmarker : Marker.ofEntries? entries with
    | some found =>
      obtain ⟨marker, payload⟩ := found
      rw [hmarker] at h
      obtain rfl := markerToNode_eq_ok h
      cases marker with
      | reference => rfl
      | raw => rfl
      | template => rfl
    | none =>
      rw [hmarker] at h
      obtain ⟨nodes, hnodes, h⟩ := bind_eq_ok_iff.mp h
      cases h
      rw [shape, entryShapes_of_toNodes hnodes]
  | .float x =>
    rw [toNode] at h
    split at h
    · cases h
      rfl
    · exact absurd h fail_ne_ok
  | .null | .bool _ | .int _ | .text _ | .reference _ | .raw _ | .template _ | .literal _
  | .sequence _ | .object _ =>
    cases h
    rfl
  | .bytes _ | .buffer _ | .set _ | .date _ | .moment _ | .foreign _ | .block _ _ _ =>
    exact absurd h fail_ne_ok
termination_by structural v

theorem itemShapes_of_toNodes {path : Path} {index : Nat} {items nodes : List Value}
    (h : toNodes path index items = .ok nodes) : itemShapes nodes = itemShapes items := by
  match items with
  | [] =>
    cases h
    rfl
  | item :: rest =>
    obtain ⟨node, others, hnode, hothers, rfl⟩ := toNodes_cons_eq_ok h
    rw [itemShapes, itemShapes, shape_of_toNode hnode, itemShapes_of_toNodes hothers]
termination_by structural items

theorem entryShapes_of_toNodes {path : Path} {entries nodes : List (Value × Value)}
    (h : entriesToNodes path entries = .ok nodes) : entryShapes nodes = entryShapes entries := by
  match entries with
  | [] =>
    cases h
    rfl
  | (key, value) :: rest =>
    obtain ⟨node, others, hnode, hothers, rfl⟩ := entriesToNodes_cons_eq_ok h
    rw [entryShapes, entryShapes, shape_of_toNode hnode, entryShapes_of_toNodes hothers]
termination_by structural entries

end

/-- **A node has the form of the value it is read from**, since it is written as the value is. -/
theorem sameForm_of_toNode {v node : Value} {path : Path} (h : v.toNode path = .ok node) :
    SameForm v node := by
  refine .of_encode path (shape_of_toNode h) fun style => ?_
  rw [encode_eq, encode_eq, h, (toNode_of_toNode path h).1]

/-! ### Reading early makes no difference -/

/-- Each kind of replacement keeps the form where those inside it do. -/
theorem Early.sameForm (h : v.Early w) : SameForm v w := by
  induction h with
  | refl v => exact .refl v
  | node h => exact sameForm_of_toNode h
  | row row _ ih => exact sameForm_row row row ih
  | sequence row _ ih => exact sameForm_row row .sequence ih
  | mapping hplain _ ih =>
    exact (sameForm_mapping hplain).trans
      ((sameForm_object ih).trans (sameForm_mapping (ofEntries?_exchanged hplain)).symm)
  | object hplain _ ih => exact (sameForm_mapping hplain).trans (sameForm_object ih)

/-- **It makes no difference when a value is read as a node.** Whatever parts of a value are read as
nodes before the encoder does so, and whatever lists and objects are built around parts that are
not, the value is encoded when it would have been, in every format, and as the same text at every
level. -/
theorem Early.encodedText_eq_ok_iff (h : v.Early w) (format : Format) (path : Path) (level : Int)
    (text : List Char) :
    w.encodedText format path level = .ok text ↔ v.encodedText format path level = .ok text := by
  unfold encodedText
  simp only [bind_eq_ok_iff, h.sameForm.encode_eq_ok_iff]

/-- An object around a list that is read as a node but for its marker, and around a marker that is
left as it is. -/
theorem encodedText_eq_ok_mixed :
    let marker := Value.mapping [(.text "$var", .text "b")]
    let raw := Value.mapping [(.text "$func", .text "g()")]
    let v := Value.mapping [(.text "xs", .list [.int 1, .list [.bool true], marker]),
      (.text "f", raw)]
    let w := Value.object [(.text "xs", .sequence [.literal (.int 1),
      .sequence [.literal (.bool true)], marker]), (.text "f", raw)]
    v.Early w ∧ w.encodedText { alignEquals := true } [] 1 = .ok
      ("\x7b\n    xs = [\n      1,\n      [true],\n      var.b\n    ]\n" ++
        "    f = g()\n  \x7d").toList := by
  intro marker raw v w
  have hitems : (Value.list [.int 1, .list [.bool true], marker]).Early
      (.sequence [.literal (.int 1), .sequence [.literal (.bool true)], marker]) := by
    refine @Early.sequence .list [(.int 1, .literal (.int 1)),
      (.list [.bool true], .sequence [.literal (.bool true)]), (marker, marker)] ?_
    simp only [List.forall_mem_cons, List.not_mem_nil, false_imp_iff, implies_true, and_true]
    exact ⟨@Early.node _ _ [] rfl, @Early.node _ _ [] rfl, .refl marker⟩
  have hearly : v.Early w := by
    refine @Early.object [⟨.text "xs", _, _⟩, ⟨.text "f", raw, raw⟩] rfl ?_
    simp only [List.forall_mem_cons, List.not_mem_nil, false_imp_iff, implies_true, and_true]
    exact ⟨hitems, .refl raw⟩
  refine ⟨hearly, (Early.encodedText_eq_ok_iff hearly _ _ _ _).mpr ?_⟩
  rfl

end Value

end Stanza
