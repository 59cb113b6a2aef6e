import Stanza.Template

/-!
From plain data to expression nodes.

A mapping with a single entry can be a marker: its key says that the payload is the name of a
reference, the text of a raw expression, or the segments of a template. `Value.toNode` reads plain
data this way at every depth and leaves nodes as they are. It is the place where values that have
no form in the configuration language are turned down.
-/

namespace Stanza

/-- What a marker stands for. -/
inductive Marker where
  | reference
  | raw
  | template
  deriving DecidableEq, Repr, Inhabited

namespace Marker

/-- The key of a marker. -/
def name : Marker → String
  | .reference => "$var"
  | .raw => "$func"
  | .template => "$template"

/-- The marker of a key, if it is the key of one. -/
def ofName? (key : String) : Option Marker :=
  if key = "$var" then some .reference
  else if key = "$func" then some .raw
  else if key = "$template" then some .template
  else none

theorem ofName?_name (m : Marker) : ofName? m.name = some m := by cases m <;> rfl

/-- The marker that the entries of a mapping make it, with its payload. -/
def ofEntries? : Entries → Option (Marker × Value)
  | [(.text key, payload)] => (ofName? key).map fun marker => (marker, payload)
  | _ => none

/-- Whether the entries of a mapping make it a marker. -/
def isMarker (entries : Entries) : Bool := (ofEntries? entries).isSome

/-- The reference whose name is the payload of a marker. -/
def reference? (path : Path) (payload : Value) : Except Fault Value :=
  match payload.nonEmptyText? with
  | some s => .ok (.reference (.text s))
  | none => fail .referenceMarker path

/-- The raw expression whose text is the payload of a marker. -/
def raw? (path : Path) (payload : Value) : Except Fault Value :=
  match payload with
  | .text s => .ok (.raw (.text s))
  | _ => fail .rawMarker path

end Marker

namespace Value

mutual

/-- The segments that the payload of a template marker lists. -/
def markerSegments (path : Path) : Value → Except Fault (List Value)
  | .list items => segmentItems path 0 items
  | .tuple items => segmentItems path 0 items
  | _ => fail .templateMarker path

/-- The items of a template marker from an index on, as segments. -/
def segmentItems (path : Path) (index : Nat) : List Value → Except Fault (List Value)
  | [] => .ok []
  | item :: rest => do
      let segment ← item.toSegment (path ++ [.int index])
      return segment :: (← segmentItems path (index + 1) rest)

/-- One item of a template marker: a text, a reference, or the marker of a reference. -/
def toSegment (path : Path) : Value → Except Fault Value
  | .text s => .ok (.text s)
  | .reference name => .ok (.reference name)
  | .mapping [(.text key, payload)] =>
      match Marker.ofName? key with
      | some .reference => Marker.reference? path payload
      | some .raw => do
          let _ ← Marker.raw? path payload
          fail (.markerSegment .raw) path
      | some .template => do
          let _ ← payload.markerSegments path
          fail (.markerSegment .template) path
      | none => fail (.markerSegment .mapping) path
  | v => fail (.markerSegment v.kind) path

end

end Value

/-- The node that a marker with the given payload stands for. -/
def Marker.toNode (path : Path) (payload : Value) : Marker → Except Fault Value
  | .reference => Marker.reference? path payload
  | .raw => Marker.raw? path payload
  | .template => do return .template (Template.merge (← payload.markerSegments path))

/-- What a marker stands for: a reference or a raw expression with its payload, or the template of
the segments that its payload lists. -/
theorem Marker.toNode_eq_ok {marker : Marker} {path : Path} {payload node : Value}
    (h : marker.toNode path payload = .ok node) :
    (marker = .reference ∧ payload.nonEmptyText?.isSome ∧ node = .reference payload) ∨
      (marker = .raw ∧ (∃ s, payload = .text s) ∧ node = .raw payload) ∨
      ∃ segments, marker = .template ∧ payload.markerSegments path = .ok segments ∧
        node = .template (Template.merge segments) := by
  cases marker with
  | reference =>
    rw [Marker.toNode, Marker.reference?] at h
    split at h
    · rename_i s hs
      refine .inl ⟨rfl, by rw [hs]; rfl, ?_⟩
      cases h
      unfold Value.nonEmptyText? at hs
      split at hs
      · split at hs
        · cases hs
        · cases hs
          rfl
      · cases hs
    · exact absurd h fail_ne_ok
  | raw =>
    rw [Marker.toNode] at h
    unfold Marker.raw? at h
    split at h
    · cases h
      exact .inr (.inl ⟨rfl, ⟨_, rfl⟩, rfl⟩)
    · exact absurd h fail_ne_ok
  | template =>
    rw [Marker.toNode] at h
    cases hsegments : payload.markerSegments path with
    | error fault =>
      rw [hsegments] at h
      cases h
    | ok segments =>
      rw [hsegments] at h
      cases h
      exact .inr (.inr ⟨segments, rfl, rfl, rfl⟩)

namespace Value

mutual

/-- The node of a value: plain data is read at every depth, a node stays what it is. -/
def toNode (path : Path) : Value → Except Fault Value
  | .null => .ok (.literal .null)
  | .bool b => .ok (.literal (.bool b))
  | .int n => .ok (.literal (.int n))
  | .float x =>
      if x.isFinite then .ok (.literal (.float x)) else fail (.notFinite x) path
  | .text s => .ok (.literal (.text s))
  | .list items => do return .sequence (← toNodes path 0 items)
  | .tuple items => do return .sequence (← toNodes path 0 items)
  | .mapping entries =>
      match Marker.ofEntries? entries with
      | some (marker, payload) => marker.toNode path payload
      | none => do return .object (← entriesToNodes path entries)
  | .reference name => .ok (.reference name)
  | .raw expression => .ok (.raw expression)
  | .template segments => .ok (.template segments)
  | .literal value => .ok (.literal value)
  | .sequence elements => .ok (.sequence elements)
  | .object entries => .ok (.object entries)
  | v => fail (.unsupported v.kind) path

/-- The nodes of some items from an index on. -/
def toNodes (path : Path) (index : Nat) : List Value → Except Fault (List Value)
  | [] => .ok []
  | item :: rest => do
      let node ← item.toNode (path ++ [.int index])
      return node :: (← toNodes path (index + 1) rest)

/-- The entries of a mapping with the nodes of their values. -/
def entriesToNodes (path : Path) : List (Value × Value) → Except Fault (List (Value × Value))
  | [] => .ok []
  | (key, value) :: rest => do
      let node ← value.toNode (path ++ [key])
      return (key, node) :: (← entriesToNodes path rest)

end

section Node

variable {path : Path} {index : Nat} {nodes : List Value} {entryNodes : List (Value × Value)}

theorem toNodes_cons_eq_ok {item : Value} {rest : List Value}
    (h : toNodes path index (item :: rest) = .ok nodes) :
    ∃ node others, item.toNode (path ++ [.int index]) = .ok node ∧
      toNodes path (index + 1) rest = .ok others ∧ nodes = node :: others := by
  rw [toNodes] at h
  cases hnode : item.toNode (path ++ [.int index]) with
  | error fault =>
    rw [hnode] at h
    cases h
  | ok node =>
    rw [hnode] at h
    cases hothers : toNodes path (index + 1) rest with
    | error fault =>
      simp only [hothers] at h
      cases h
    | ok others =>
      simp only [hothers] at h
      cases h
      exact ⟨node, others, rfl, rfl, rfl⟩

theorem entriesToNodes_cons_eq_ok {key value : Value} {rest : List (Value × Value)}
    (h : entriesToNodes path ((key, value) :: rest) = .ok entryNodes) :
    ∃ node others, value.toNode (path ++ [key]) = .ok node ∧
      entriesToNodes path rest = .ok others ∧ entryNodes = (key, node) :: others := by
  rw [entriesToNodes] at h
  cases hnode : value.toNode (path ++ [key]) with
  | error fault =>
    rw [hnode] at h
    cases h
  | ok node =>
    rw [hnode] at h
    cases hothers : entriesToNodes path rest with
    | error fault =>
      simp only [hothers] at h
      cases h
    | ok others =>
      simp only [hothers] at h
      cases h
      exact ⟨node, others, rfl, rfl, rfl⟩

end Node

end Value

end Stanza
