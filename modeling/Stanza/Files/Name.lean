import Stanza.Text.Lower

/-!
Names of files.

A name is cut at its slashes. Read as a `FilePath` it has a normal form: doubled slashes and parts
that are a single dot mean nothing, while two dots are kept, since what they mean depends on the
directories there are.
-/

namespace Stanza

/-- The parts of a text between slashes. -/
def splitSlashes : List Char → List (List Char)
  | [] => [[]]
  | c :: rest =>
      if c = '/' then [] :: splitSlashes rest
      else match splitSlashes rest with
        | [] => [[c]]
        | part :: others => (c :: part) :: others

/-- A name of a file or directory in its normal form. -/
structure FilePath where
  absolute : Bool
  /-- The parts in order, none of them empty or a single dot. -/
  parts : List String
  deriving DecidableEq, Repr, Inhabited

namespace FilePath

/-- Whether a part of a name means nothing. -/
def isIdle (part : String) : Bool := part = "" || part = "."

/-- The path that a name stands for. -/
def ofText (name : String) : FilePath where
  absolute := name.toList.head? = some '/'
  parts := ((splitSlashes name.toList).map String.ofList).filter fun part => !isIdle part

/-- The text of a path. -/
def text (p : FilePath) : String :=
  if p.absolute then "/" ++ "/".intercalate p.parts
  else if p.parts.isEmpty then "."
  else "/".intercalate p.parts

/-- A path below a directory; an absolute one stands for itself. -/
def below (directory p : FilePath) : FilePath :=
  if p.absolute then p else ⟨directory.absolute, directory.parts ++ p.parts⟩

/-- The path of the directory that a path is in. -/
def parent (p : FilePath) : FilePath := { p with parts := p.parts.dropLast }

/-- The ending of a name from its last dot on; a dot at the front or at the end starts none. -/
def endingOf (name : List Char) : List Char :=
  let ending := (name.reverse.takeWhile (· ≠ '.')).reverse
  let stem := name.length - ending.length
  if ending.isEmpty || stem < 2 then [] else '.' :: ending

/-- The ending of the last part of a path, in small letters. -/
def suffix (p : FilePath) : String :=
  String.ofList (Text.toSmall (endingOf (p.parts.getLast?.getD "").toList))

end FilePath

end Stanza
