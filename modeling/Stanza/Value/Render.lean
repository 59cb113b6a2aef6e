import Stanza.Expression
import Stanza.Layout.Assignment
import Stanza.Value.Node

/-!
Values as expressions of the configuration language.

`Value.render` is defined by the shape of a value. A list stays on one line when each of its items
is written on one by its nature and there are not too many of them; otherwise every item has a
line. An object has a line for each entry. All items of a list are read as nodes before the first
is rendered, and all keys of an object are checked before the first value is, so that of several
faults the one reported does not depend on the layout. `Value.encode` reads a value as a node and
renders it; rendering the value itself comes to the same (`Value.encode_eq`).
-/

namespace Stanza

/-- The text of a reference: a bare name is that of a variable, a dotted one is taken as it is. -/
def referenceChars (name : List Char) : List Char :=
  if name.contains '.' then name else "var.".toList ++ name

/-- The text of a reference, whose name has to be a text that is not empty. -/
def referenceText (path : Path) (name : Value) : Except Fault (List Char) :=
  match name.nonEmptyText? with
  | some s => .ok (referenceChars s.toList)
  | none => fail .referenceName path

/-- The text of a raw expression, checked if the style asks for it. -/
def rawText (style : Style) (path : Path) : Value → Except Fault (List Char)
  | .text s =>
      if style.validate then do return (← Expression.checkText s path).toList
      else .ok s.toList
  | _ => fail .rawText path

namespace Template

/-- A dollar sign that does not join what follows: a splice of its own. -/
def lonelyDollar : List Char := "$\x7b\"$\"\x7d".toList

/-- The escaped text of a segment. A dollar sign at the end of a text right before a splice would
double the dollar of the splice, so it becomes a splice itself. -/
def escapeSegment (spliceFollows : Bool) (text : List Char) : List Char :=
  let escaped := Text.Quoted.escape text
  if spliceFollows && escaped.getLast? == some '$' then escaped.dropLast ++ lonelyDollar
  else escaped

/-- Whether some segments begin with a reference. -/
def beginsWithReference : List Value → Bool
  | .reference _ :: _ => true
  | _ => false

/-- The text of some segments between the quotes. -/
def segmentsText (path : Path) : List Value → Except Fault (List Char)
  | [] => .ok []
  | .text s :: rest => do
      return escapeSegment (beginsWithReference rest) s.toList ++ (← segmentsText path rest)
  | .reference name :: rest => do
      let reference ← referenceText path name
      return '$' :: '\x7b' :: reference ++ '\x7d' :: (← segmentsText path rest)
  | segment :: _ => fail (.segment segment.kind) path

/-- The text of a template. -/
def text (path : Path) (segments : List Value) : Except Fault (List Char) := do
  return '"' :: (← segmentsText path segments) ++ ['"']

end Template

/-- The text of a scalar. -/
def scalarText (path : Path) : Value → Except Fault (List Char)
  | .null => .ok "null".toList
  | .bool b => .ok (if b then "true".toList else "false".toList)
  | .int n => if withinDigitLimit n then .ok (integerText n) else fail .tooLong path
  | .float x =>
      match x.numeral? with
      | some digits => .ok digits
      | none => fail (.notFinite x) path
  | .text s => .ok (Text.Quoted.quote s.toList)
  | v => fail (.unsupported v.kind) path

/-- The text of the marker whose payload is given. -/
def markerText (style : Style) (path : Path) (payload : Value) :
    Marker → Except Fault (List Char)
  | .reference => do
      let _ ← Marker.reference? path payload
      referenceText path payload
  | .raw => do
      let _ ← Marker.raw? path payload
      rawText style path payload
  | .template => do Template.text path (Template.merge (← payload.markerSegments path))

/-- The text of the key of an object, whose name has to be a text that is not empty. -/
def objectKeyText (path : Path) (key : Value) : Except Fault (List Char) :=
  match key.nonEmptyText? with
  | some s => .ok (if Text.isIdentifier s.toList then s.toList else Text.Quoted.quote s.toList)
  | none => fail (.objectKey key) (path ++ [key])

/-- The texts of the keys of an object. -/
def objectKeyTexts (path : Path) : Entries → Except Fault (List (List Char))
  | [] => .ok []
  | (key, _) :: rest => do
      let text ← objectKeyText path key
      return text :: (← objectKeyTexts path rest)

namespace Rendered

/-- A text on one line. -/
def inline (text : List Char) : Rendered := ⟨text, []⟩

/-- The items of a list with commas between them, a line for each. -/
def itemLines : List Rendered → List Line
  | [] => []
  | [item] => item.lines
  | item :: rest => (item.close [',']).lines ++ itemLines rest

/-- A list of items, on one line or over several. -/
def ofItems (isOneLine : Bool) (items : List Rendered) : Rendered :=
  if items.isEmpty then inline "[]".toList
  else if isOneLine then
    inline ('[' :: joined [',', ' '] (items.map Rendered.head) ++ [']'])
  else ⟨['['], (itemLines items).map Line.deepen ++ [.code 0 [']']]⟩

/-- An object with the given assignments. -/
def ofAssignments (style : Style) (assignments : List Assignment) : Rendered :=
  if assignments.isEmpty then inline "\x7b\x7d".toList
  else
    ⟨['\x7b'],
      ((Assignment.renderAll style assignments).flatMap Rendered.lines).map Line.deepen ++
        [.code 0 ['\x7d']]⟩

end Rendered

namespace Value

/-- Whether a value is written on one line by its nature, whatever the style. -/
def isInline : Value → Bool
  | .list _ | .tuple _ | .sequence _ | .object _ => false
  | .mapping entries => Marker.isMarker entries
  | _ => true

/-- Whether a list of the given items stays on one line. -/
def staysOnLine (style : Style) (items : List Value) : Bool :=
  items.all isInline && style.fits items.length

mutual

/-- A value as an expression. -/
def render (style : Style) (path : Path) : Value → Except Fault Rendered
  | .list items => do
      let _ ← toNodes path 0 items
      return .ofItems (staysOnLine style items) (← renderItems style path 0 items)
  | .tuple items => do
      let _ ← toNodes path 0 items
      return .ofItems (staysOnLine style items) (← renderItems style path 0 items)
  | .sequence elements => do
      let _ ← toNodes path 0 elements
      return .ofItems (staysOnLine style elements) (← renderItems style path 0 elements)
  | .mapping entries =>
      match Marker.ofEntries? entries with
      | some (marker, payload) => do return .inline (← markerText style path payload marker)
      | none => do
          let keys ← objectKeyTexts path entries
          return .ofAssignments style (← renderEntries style path keys entries)
  | .object entries => do
      let keys ← objectKeyTexts path entries
      return .ofAssignments style (← renderEntries style path keys entries)
  | .reference name => do return .inline (← referenceText path name)
  | .raw expression => do return .inline (← rawText style path expression)
  | .template segments => do return .inline (← Template.text path segments)
  | .literal value => do return .inline (← scalarText path value)
  | v => do return .inline (← scalarText path v)

/-- The items of a list from an index on as expressions. -/
def renderItems (style : Style) (path : Path) (index : Nat) :
    List Value → Except Fault (List Rendered)
  | [] => .ok []
  | item :: rest => do
      let rendered ← item.render style (path ++ [.int index])
      return rendered :: (← renderItems style path (index + 1) rest)

/-- The entries of a mapping as assignments to the given keys. -/
def renderEntries (style : Style) (path : Path) (keys : List (List Char)) :
    List (Value × Value) → Except Fault (List Assignment)
  | [] => .ok []
  | (key, value) :: rest => do
      let _ ← value.toNode (path ++ [key])
      let rendered ← value.render style (path ++ [key])
      return ⟨keys.headD [], rendered⟩ :: (← renderEntries style path keys.tail rest)

end

/-- A value read as a node and rendered. -/
def encode (style : Style) (path : Path) (v : Value) : Except Fault Rendered := do
  let _ ← v.toNode path
  v.render style path

/-! ### Rendering the node -/

section Node

variable {style : Style} {path keyPath : Path} {index : Nat} {v node payload : Value}
  {items nodes : List Value} {entries entryNodes : List (Value × Value)}

/-- What a marker stands for is written as the marker is. -/
theorem render_markerToNode {marker : Marker} (h : marker.toNode path payload = .ok node) :
    node.render style path = (do return .inline (← markerText style path payload marker)) := by
  rcases Marker.toNode_eq_ok h with ⟨rfl, hs, rfl⟩ | ⟨rfl, ⟨s, rfl⟩, rfl⟩ | ⟨segments, rfl, hs, rfl⟩
  · obtain ⟨s, hs⟩ := Option.isSome_iff_exists.mp hs
    simp only [render, markerText, Marker.reference?, hs]
    rfl
  · rfl
  · simp only [render, markerText, hs]
    rfl

/-- What a value is read as is a node, which is written on one line by its nature when the value
is. -/
theorem toNode_of_toNode (other : Path) (h : v.toNode path = .ok node) :
    node.toNode other = .ok node ∧ node.isInline = v.isInline := by
  cases v with
  | list items | tuple items =>
    rw [toNode] at h
    cases hnodes : toNodes path 0 items with
    | error fault =>
      rw [hnodes] at h
      cases h
    | ok nodes =>
      rw [hnodes] at h
      cases h
      exact ⟨rfl, rfl⟩
  | mapping entries =>
    rw [toNode] at h
    rw [isInline, Marker.isMarker]
    cases hmarker : Marker.ofEntries? entries with
    | some found =>
      obtain ⟨marker, payload⟩ := found
      rw [hmarker] at h
      rcases Marker.toNode_eq_ok h with ⟨-, -, rfl⟩ | ⟨-, -, rfl⟩ | ⟨segments, -, -, rfl⟩
      · exact ⟨rfl, rfl⟩
      · exact ⟨rfl, rfl⟩
      · exact ⟨rfl, rfl⟩
    | none =>
      rw [hmarker] at h
      cases hnodes : entriesToNodes path entries with
      | error fault =>
        rw [hnodes] at h
        cases h
      | ok nodes =>
        rw [hnodes] at h
        cases h
        exact ⟨rfl, rfl⟩
  | float x =>
    rw [toNode] at h
    split at h
    · cases h
      exact ⟨rfl, rfl⟩
    · exact absurd h fail_ne_ok
  | null | bool _ | int _ | text _ | reference _ | raw _ | template _ | literal _ | sequence _
  | object _ =>
    cases h
    exact ⟨rfl, rfl⟩
  | bytes _ | buffer _ | set _ | date _ | moment _ | foreign _ | block _ _ _ =>
    exact absurd h fail_ne_ok

/-- Some items and the nodes that they are read as are alike but for what the nodes are. -/
theorem toNodes_of_toNodes (h : toNodes path index items = .ok nodes) :
    toNodes path index nodes = .ok nodes ∧ nodes.all isInline = items.all isInline ∧
      nodes.length = items.length := by
  induction items generalizing index nodes with
  | nil =>
    cases h
    exact ⟨rfl, rfl, rfl⟩
  | cons item rest ih =>
    obtain ⟨node, others, hnode, hothers, rfl⟩ := toNodes_cons_eq_ok h
    obtain ⟨hagain, hinline⟩ := toNode_of_toNode (path ++ [.int index]) hnode
    obtain ⟨hagain', hinline', hlength⟩ := ih hothers
    refine ⟨?_, ?_, congrArg (· + 1) hlength⟩
    · rw [toNodes, hagain, hagain']
      rfl
    · rw [List.all_cons, List.all_cons, hinline, hinline']

theorem staysOnLine_of_toNodes (style : Style) (h : toNodes path index items = .ok nodes) :
    staysOnLine style nodes = staysOnLine style items := by
  obtain ⟨-, hinline, hlength⟩ := toNodes_of_toNodes h
  rw [staysOnLine, staysOnLine, hinline, hlength]

theorem objectKeyTexts_of_toNodes (h : entriesToNodes path entries = .ok entryNodes) :
    objectKeyTexts keyPath entryNodes = objectKeyTexts keyPath entries := by
  induction entries generalizing entryNodes with
  | nil =>
    cases h
    rfl
  | cons entry rest ih =>
    obtain ⟨node, others, -, hothers, rfl⟩ := entriesToNodes_cons_eq_ok h
    rw [objectKeyTexts, objectKeyTexts, ih hothers]

end Node

section Node

variable {style : Style}

mutual

/-- **A value is written as the node that it is read as.** -/
theorem render_of_toNode {path : Path} {v node : Value} (h : v.toNode path = .ok node) :
    node.render style path = v.render style path := by
  match v with
  | .list items | .tuple items =>
    rw [toNode] at h
    cases hnodes : toNodes path 0 items with
    | error fault =>
      rw [hnodes] at h
      cases h
    | ok nodes =>
      rw [hnodes] at h
      cases h
      rw [render, render, (toNodes_of_toNodes hnodes).1, hnodes,
        staysOnLine_of_toNodes style hnodes, renderItems_of_toNodes hnodes]
  | .mapping entries =>
    rw [toNode] at h
    rw [render]
    cases hmarker : Marker.ofEntries? entries with
    | some found =>
      rw [hmarker] at h
      exact render_markerToNode h
    | none =>
      rw [hmarker] at h
      cases hnodes : entriesToNodes path entries with
      | error fault =>
        rw [hnodes] at h
        cases h
      | ok nodes =>
        rw [hnodes] at h
        cases h
        rw [render, objectKeyTexts_of_toNodes hnodes]
        exact bind_congr fun keys => by rw [renderEntries_of_toNodes keys hnodes]
  | .float x =>
    rw [toNode] at h
    split at h
    · cases h
      rfl
    · exact absurd h fail_ne_ok
  | .null | .bool _ | .int _ | .text _ | .reference _ | .raw _ | .template _ | .literal _
  | .sequence _ | .object _ =>
    cases h
    rfl
  | .bytes _ | .buffer _ | .set _ | .date _ | .moment _ | .foreign _ | .block _ _ _ =>
    exact absurd h fail_ne_ok
termination_by structural v

theorem renderItems_of_toNodes {path : Path} {index : Nat} {items nodes : List Value}
    (h : toNodes path index items = .ok nodes) :
    renderItems style path index nodes = renderItems style path index items := by
  match items with
  | [] =>
    cases h
    rfl
  | item :: rest =>
    obtain ⟨node, others, hnode, hothers, rfl⟩ := toNodes_cons_eq_ok h
    rw [renderItems, renderItems, render_of_toNode hnode, renderItems_of_toNodes hothers]
termination_by structural items

theorem renderEntries_of_toNodes {path : Path} {entries nodes : List (Value × Value)}
    (keys : List (List Char)) (h : entriesToNodes path entries = .ok nodes) :
    renderEntries style path keys nodes = renderEntries style path keys entries := by
  match entries with
  | [] =>
    cases h
    rfl
  | (key, value) :: rest =>
    obtain ⟨node, others, hnode, hothers, rfl⟩ := entriesToNodes_cons_eq_ok h
    rw [renderEntries, renderEntries, (toNode_of_toNode _ hnode).1, hnode, render_of_toNode hnode,
      renderEntries_of_toNodes keys.tail hothers]
termination_by structural entries

end

end Node

/-- A value is encoded as its node is rendered, and fails where one of the two does. -/
theorem encode_eq (style : Style) (path : Path) (v : Value) :
    v.encode style path = v.toNode path >>= fun node => node.render style path := by
  rw [encode]
  cases hnode : v.toNode path with
  | error fault => rfl
  | ok node => exact (render_of_toNode hnode).symm

/-! ### Numerals -/

/-- The numeral of a number. A truth value is shown as one. -/
def numeral : Value → Except Fault (List Char)
  | .bool b => .ok (Value.bool b).literalChars
  | .int n => if withinDigitLimit n then .ok (integerText n) else .error .unwritable
  | .float x =>
      match x.numeral? with
      | some digits => .ok digits
      | none => .error (.noNumeral x)
  | .foreign .decimal => .error (.noFraction (.foreign .decimal))
  | v => .error (.noNumber v.kind)

end Value

end Stanza
