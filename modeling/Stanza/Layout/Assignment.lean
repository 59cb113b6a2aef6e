import Stanza.Layout.Line

/-!
Assignments, and how their equals signs line up.

A run is a stretch of neighbouring assignments whose values are each on one line. With alignment
on, every key of a run is padded to the longest one; a value of several lines ends the run and its
own key is not padded.
-/

namespace Stanza

/-- A key as it is written, and the value it is given. -/
structure Assignment where
  key : List Char
  value : Rendered
  deriving DecidableEq, Repr, Inhabited

namespace Assignment

/-- A key with spaces behind it up to a width. -/
def pad (width : Nat) (key : List Char) : List Char :=
  key ++ List.replicate (width - key.length) ' '

/-- An assignment whose key is padded to a width. -/
def render (width : Nat) (a : Assignment) : Rendered :=
  a.value.lead (pad width a.key ++ [' ', '=', ' '])

/-- The longest key of the run at the front of some assignments. -/
def runWidth : List Assignment → Nat
  | [] => 0
  | a :: rest => if a.value.isSingle then max a.key.length (runWidth rest) else 0

/-- Assignments with the equals signs of each run lined up; `width` is the width of the run that
the first of them continues. -/
def align (width : Nat) : List Assignment → List Rendered
  | [] => []
  | a :: rest =>
      if a.value.isSingle then
        let wide := max width (runWidth (a :: rest))
        a.render wide :: align wide rest
      else a.render 0 :: align 0 rest

/-- The texts of some assignments, in the given style. -/
def renderAll (style : Style) (assignments : List Assignment) : List Rendered :=
  if style.alignEquals then align 0 assignments else assignments.map (render 0)

end Assignment

end Stanza
