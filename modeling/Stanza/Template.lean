import Stanza.Fault

/-!
Templates: quoted strings with references spliced in.

A template is a list of segments, each a text or a reference. Parts are joined by putting their
segments in a row and merging neighbouring texts, so that two ways of cutting the same text give
the same template. `Value.add` is the sum of two values, which is a template as soon as one of
them is a reference or a template.
-/

namespace Stanza

namespace Template

/-- The segments with neighbouring texts merged and empty texts left out. -/
def merge : List Value → List Value
  | [] => []
  | .text s :: rest =>
      match merge rest with
      | .text t :: others => .text (s ++ t) :: others
      | others => if s = "" then others else .text s :: others
  | segment :: rest => segment :: merge rest

/-- The segments that a part of a template stands for. -/
def segments? : Value → Option (List Value)
  | .template segments => some segments
  | .text s => some [.text s]
  | .reference name => some [.reference name]
  | _ => none

/-- The segments of some parts in a row. -/
def gather : List Value → Except Fault (List Value)
  | [] => .ok []
  | part :: rest =>
      match segments? part with
      | none => fail (.joined part.kind) []
      | some segments => do return segments ++ (← gather rest)

/-- The template that some parts make. -/
def ofParts (parts : List Value) : Except Fault Value := do
  return .template (merge (← gather parts))

end Template

namespace Value

/-- Whether a value takes part in a sum as a template does. -/
def isSpliced : Value → Bool
  | .reference _ | .template _ => true
  | _ => false

/-- A number as a double, if the value is one. -/
def double? : Value → Option Double
  | .float x => some x
  | v => v.integer?.map Double.ofInt

/-- Whether a value is an integer beyond the range of doubles. -/
def isHuge (v : Value) : Bool :=
  match v.integer? with
  | some n => !(Double.ofInt n).isFinite
  | none => false

/-- The sum of two values of which one is foreign, if they have one. -/
def foreignSum? : Value → Value → Option Value
  | .foreign .complex, .foreign .complex => some (.foreign .complex)
  | .foreign .complex, v | v, .foreign .complex => v.double?.map fun _ => .foreign .complex
  | .foreign .decimal, .foreign .decimal => some (.foreign .decimal)
  | .foreign .decimal, v | v, .foreign .decimal => v.integer?.map fun _ => .foreign .decimal
  | _, _ => none

/-- The sum of two values that are not both integers, if they have one. -/
def plainSum? : Value → Value → Option Value
  | .text s, .text t => some (.text (s ++ t))
  | .list xs, .list ys => some (.list (xs ++ ys))
  | .tuple xs, .tuple ys => some (.tuple (xs ++ ys))
  | .bytes s, .bytes t | .bytes s, .buffer t => some (.bytes (s ++ t))
  | .buffer s, .buffer t | .buffer s, .bytes t => some (.buffer (s ++ t))
  | left, right =>
      match left.double?, right.double? with
      | some x, some y => some (.float (x.add y))
      | _, _ => foreignSum? left right

/-- The sum of two values. An integer is added to another exactly, and to anything else only
within the range of doubles. -/
def add (left right : Value) : Except Fault Value :=
  if left.isSpliced || right.isSpliced then Template.ofParts [left, right]
  else match left.integer?, right.integer?, plainSum? left right with
    | some m, some n, _ => .ok (.int (m + n))
    | _, _, none => .error (.noSum left.kind right.kind)
    | _, _, some (.foreign .decimal) => .ok (.foreign .decimal)
    | _, _, some sum => if left.isHuge || right.isHuge then .error .tooLarge else .ok sum

end Value

end Stanza
