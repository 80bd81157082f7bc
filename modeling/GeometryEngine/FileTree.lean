import GeometryEngine.Text

/-!
# Files and directories

A tree of directories and files below a working directory. A path is a sequence of
names between slashes and leads from the working directory to a file or a
directory; every name but the last has to be that of a directory. Nothing outside
the working directory can be reached, nothing with a name of more than 255
characters, and nothing over a path of more than 4095 characters, however few names
there are between its slashes. A path ends at a NUL character.

A text is a sequence of characters, one for each byte of a file.
-/

namespace GeometryEngine

/-- The names that lead to a file or a directory. -/
abbrev Location := List String

/-- What there is at a location. -/
inductive Node
  /-- A directory. -/
  | directory
  /-- A file with a text. -/
  | file (text : String)
  deriving DecidableEq, Inhabited

/-- What there is below the working directory. -/
structure FileTree where
  /-- The files and directories with their locations. -/
  nodes : List (Location × Node) := []
  deriving DecidableEq, Inhabited

namespace FileTree

/-- What there is at a location. The working directory is at the empty one. -/
def node? (t : FileTree) (l : Location) : Option Node :=
  if l = [] then some .directory else t.nodes.lookup l

/-- Puts something at a location, in place of what was there. -/
def put (t : FileTree) (l : Location) (n : Node) : FileTree :=
  { nodes := (l, n) :: t.nodes.filter fun e => e.1 ≠ l }

/-- Goes on from a location, which has to be a directory, along a name of a
    path. -/
def step (t : FileTree) (l : Location) (name : String) : Option Location :=
  match t.node? l with
  | some .directory =>
    if name = "" ∨ name = "." then some l
    else if name = ".." then if l = [] then none else some l.dropLast
    else if 255 < name.length then none
    else some (l ++ [name])
  | _ => none

/-- The characters of a path up to a NUL character, unless there are too many of
    them. -/
def path? (path : String) : Option (List Char) :=
  let path := Text.untilNul path.toList
  if 4095 < path.length then none else some path

/-- A path without the slashes at its end. -/
def dropSlashes (path : List Char) : List Char := (path.reverse.dropWhile (· = '/')).reverse

/-- Where a path leads to. There may be nothing at that location, but it is in a
    directory. -/
def locate (t : FileTree) (path : List Char) : Option Location :=
  if path = [] ∨ path.head? = some '/' then none
  else ((Text.split '/' path).map String.ofList).foldlM t.step []

/-- The text of a file. A directory can be opened, but there is nothing to read. -/
def read? (t : FileTree) (path : String) : Option String :=
  match ((path? path).bind t.locate).bind t.node? with
  | some (.file text) => some text
  | some .directory => some ""
  | none => none

/-- Writes a file, in place of what it held. -/
def write? (t : FileTree) (path text : String) : Option FileTree :=
  match (path? path).bind t.locate with
  | none => none
  | some l =>
    match t.node? l with
    | some .directory => none
    | _ => some (t.put l (.file text))

/-- Writes behind what a file holds. -/
def append? (t : FileTree) (path text : String) : Option FileTree :=
  t.write? path (((t.read? path).getD "") ++ text)

/-- Makes a directory, unless there is something of its name. The path may end in
    slashes, which count for its length. -/
def makeDirectory? (t : FileTree) (path : String) : Option FileTree :=
  match ((path? path).map dropSlashes).bind t.locate with
  | none => none
  | some l =>
    match t.node? l with
    | some _ => none
    | none => some (t.put l .directory)

end FileTree

end GeometryEngine
