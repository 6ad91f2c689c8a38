/-!
# Files by their paths

A path leads from the root if it begins with a slash, and else from a
directory: name by name, with two dots for a step up. Empty names, and those
of one dot, lead nowhere else. On its way a path leads through directories
only; there are no links.

A relative path is looked for in a directory and then in those above it, from
the nearest on (`Directory.search`). An absolute one leads to one file at
most.
-/

namespace FrameLoop

/-- **A place in a tree of directories**: the names on the way to it from the
root. -/
abbrev Place := List String

namespace Place

/-- Where one name of a path leads. -/
def step (here : Place) (name : String) : Place :=
  if name = "" ∨ name = "." then here
  else if name = ".." then here.dropLast
  else here ++ [name]

/-- Whether a path leads from the root, wherever one is. -/
def isAbsolute (path : String) : Bool := path.startsWith "/"

/-- Where a path begins. -/
def start (here : Place) (path : String) : Place := if isAbsolute path then [] else here

/-- The names of a path, between its slashes. -/
def names (path : String) : List String := (path.toList.splitOn '/').map String.ofList

/-- **Where a path leads.** -/
def follow (here : Place) (path : String) : Place := (names path).foldl step (here.start path)

/-- The places that names lead through. -/
def through (here : Place) : List String → List Place
  | [] => []
  | name :: rest => here :: through (here.step name) rest

/-- A place and those above it, from the nearest on. -/
def upward (here : Place) : List Place :=
  (List.range (here.length + 1)).map fun n => here.take (here.length - n)

end Place

/-- **Files and directories** by their paths, which are absolute or lead from
one directory: a file with its text, a directory without one. -/
structure Directory where
  entries : List (String × Option String) := []
deriving Inhabited

namespace Directory

variable (d : Directory) (home : Place)

/-- Whether there is a directory at a place, where `home` is the one from which
the paths of the entries lead. -/
def isDirectory (place : Place) : Bool :=
  place.isPrefixOf home || d.entries.any fun (path, text) =>
    place.isPrefixOf (home.follow path) && (text.isNone || place != home.follow path)

/-- The text of the file to which a path leads from a place, if there is one. -/
def text? (here : Place) (path : String) : Option String :=
  if ((here.start path).through (Place.names path)).all (d.isDirectory home) then do
    let entry ← d.entries.find? fun (name, _) => home.follow name == here.follow path
    entry.2
  else none

/-- **The text of the file that a path stands for**, looked for at `home` and
above, or at its one place if it is absolute. -/
def search (path : String) : Option String :=
  if Place.isAbsolute path then d.text? home home path
  else home.upward.findSome? (d.text? home · path)

end Directory

end FrameLoop
