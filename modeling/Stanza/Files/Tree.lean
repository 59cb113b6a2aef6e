import Stanza.Files.Name

/-!
A tree of files.

Places are counted from the working directory. A place above it begins with two dots for each
level, and there is always a directory; so is the root of all. An action on the files that fails
leaves what it had done before, as for instance directories that it made on the way.
-/

namespace Stanza

/-- Where a file or directory is. -/
abbrev Location := List String

/-- What is at a place. -/
inductive Item where
  | directory
  | file (bytes : List UInt8)
  deriving DecidableEq, Repr, Inhabited

/-- Why an action on files fails. -/
inductive FileError where
  | notFound
  /-- A directory is used as a file. -/
  | isDirectory
  /-- A file is used as a directory. -/
  | notDirectory
  /-- A directory is to be made where something else is. -/
  | alreadyThere
  /-- A name holds a null character. -/
  | nullCharacter
  /-- A part of a name is longer than parts may be. -/
  | longName
  deriving DecidableEq, Repr, Inhabited

/-- The files and directories there are. -/
structure Files where
  items : List (Location × Item)
  deriving DecidableEq, Repr, Inhabited

/-- An action on files. -/
abbrev FileAction (α : Type) := ExceptT FileError (StateM Files) α

namespace Files

/-- The root of all directories, as a place. -/
def root : Location := ["/"]

/-- Whether a place is the working directory, one above it, or the root. -/
def isOuter (place : Location) : Bool := place = root || place.all (· = "..")

/-- What is at a place. -/
def item? (files : Files) (place : Location) : Option Item :=
  if isOuter place then some .directory else files.items.lookup place

/-- The files with something else at a place. -/
def put (place : Location) (item : Item) (files : Files) : Files :=
  if (files.items.lookup place).isSome then
    ⟨files.items.map fun entry => if entry.1 = place then (place, item) else entry⟩
  else ⟨files.items ++ [(place, item)]⟩

/-- The place above another. -/
def above (place : Location) : Location :=
  if place = root then root
  else if place.all (· = "..") then ".." :: place
  else place.dropLast

/-- The greatest number of bytes in a part of a name. -/
def partLimit : Nat := 255

/-- The place that a part of a name leads to from a directory. -/
def next (here : Location) (part : String) : Location :=
  if part = "." then here else if part = ".." then above here else here ++ [part]

/-- The place that some parts of a name lead to. All but the last have to be directories. -/
def follow (files : Files) (here : Location) : List String → Except FileError Location
  | [] => .ok here
  | part :: rest =>
      match files.item? here with
      | none => .error .notFound
      | some (.file _) => .error .notDirectory
      | some .directory =>
          if partLimit < part.utf8ByteSize then .error .longName
          else follow files (next here part) rest

/-- Whether a part of a name holds a null character, with which no name is looked up. -/
def hasNull (part : String) : Bool := part.toList.contains '\x00'

/-- The place of a path. -/
def place (files : Files) (p : FilePath) : Except FileError Location :=
  if p.parts.any hasNull then .error .nullCharacter
  else files.follow (if p.absolute then root else []) p.parts

/-- The place of a name as it is given: a slash at the end asks for a directory. -/
def placeOfName (files : Files) (name : String) : Except FileError Location :=
  let parts := (splitSlashes name.toList).map fun part =>
    if part.isEmpty then "." else String.ofList part
  if hasNull name then .error .nullCharacter
  else if name.isEmpty then .error .notFound
  else if name.toList.head? = some '/' then files.follow root parts.tail
  else files.follow [] parts

/-- What is at the place of a name. -/
def itemOfName (files : Files) (name : String) : Except FileError Item := do
  match files.item? (← files.placeOfName name) with
  | some item => return item
  | none => .error .notFound

/-- Whether there is anything at the place of a name. -/
def exists? (files : Files) (name : String) : Bool := (files.itemOfName name).toOption.isSome

/-- The bytes of an item, which has to be a file. -/
def bytesOf : Option Item → Except FileError (List UInt8)
  | none => .error .notFound
  | some .directory => .error .isDirectory
  | some (.file bytes) => .ok bytes

/-- The bytes of the file of a path. -/
def read (files : Files) (p : FilePath) : Except FileError (List UInt8) := do
  bytesOf (files.item? (← files.place p))

/-- The bytes of the file of a name. -/
def readName (files : Files) (name : String) : Except FileError (List UInt8) := do
  bytesOf (files.item? (← files.placeOfName name))

/-- The result of an action that only looks at the files. -/
def look {α : Type} (read : Files → Except FileError α) : FileAction α := do
  ExceptT.mk (return read (← get))

/-- Makes the directory of a path. -/
def makeDirectory (p : FilePath) : FileAction Unit := do
  let place ← look (·.place p)
  match (← get).item? place with
  | some _ => throw .alreadyThere
  | none => modify (put place .directory)

/-- Whether there is a directory at a path. -/
def isDirectory (files : Files) (p : FilePath) : Bool :=
  match files.place p with
  | .ok place => files.item? place = some .directory
  | .error _ => false

/-- Takes a failure to make the directory of a path for a success if there is one. -/
def tolerate (p : FilePath) (error : FileError) : FileAction Unit := do
  if (← get).isDirectory p then return else throw error

/-- Makes the directory of the path whose parts are given backwards, and those above it. -/
def ensureBackwards (absolute : Bool) : List String → FileAction Unit
  | [] => return
  | part :: before => do
      let p : FilePath := ⟨absolute, (part :: before).reverse⟩
      tryCatch (makeDirectory p) fun error => do
        if error = .notFound then
          ensureBackwards absolute before
          tryCatch (makeDirectory p) (tolerate p)
        else tolerate p error

/-- Makes the directory of a path and those above it, as far as they are missing. -/
def ensureDirectory (p : FilePath) : FileAction Unit :=
  ensureBackwards p.absolute p.parts.reverse

/-- Writes a file. -/
def write (p : FilePath) (bytes : List UInt8) : FileAction Unit := do
  let place ← look (·.place p)
  match (← get).item? place with
  | some .directory => throw .isDirectory
  | _ => modify (put place (.file bytes))

/-- Writes a file and makes the directories above it. -/
def writeBelow (p : FilePath) (bytes : List UInt8) : FileAction Unit := do
  ensureDirectory p.parent
  write p bytes

/-- Makes a file without contents unless there is one. -/
def touch (p : FilePath) : FileAction Unit := do
  match (← get).item? (← look (·.place p)) with
  | some (.file _) => return
  | _ => write p []

end Files

end Stanza
