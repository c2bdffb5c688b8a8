import LetLang.CommandLine.Run

/-!
# Files of a command line

The command works on files as a value. This module reads those that the arguments name, and
everything on the way to them, from disk before a run, and writes back what the run changed.
-/

namespace LetLang.CommandLine

/-- The paths that arguments name: every operand and every output. -/
def namedPaths (arguments : Arguments) : List Path :=
  (arguments.operands ++ arguments.values .output).map Path.parse

/-- The text of a place, by which the system finds it. -/
def placeText (place : Place) : String :=
  match place with
  | "/" :: names => "/" ++ "/".intercalate names
  | names => if names.isEmpty then "." else "/".intercalate names

/-- What the system finds under a text. -/
def lookUp (text : String) : IO (Option Node) := do
  try
    let found ← IO.FS.realPath text
    if ← found.isDir then return some .directory
    return some (.file (← IO.FS.readBinFile text).toList)
  catch _ => return none

def addPath (tree : FileTree) (path : Path) : IO FileTree := do
  let mut place : Place := if path.root == "" then [] else ["/"]
  let mut tree := tree
  for part in path.parts do
    place := if part == ".." then FileTree.parent place else place ++ [part]
    match ← lookUp (placeText place) with
    | some node => tree := tree.set place node
    | none => pure ()
  return tree

/-- The files that arguments name. Arguments that cannot be taken apart name none. -/
def snapshot (arguments : List String) : IO FileTree :=
  match readArguments arguments with
  | .ok arguments => (namedPaths arguments).foldlM addPath .empty
  | .error _ => return .empty

/-- Write the files that a run changed. -/
def store (before after : FileTree) : IO Unit :=
  for (place, bytes) in before.changes after do
    IO.FS.writeBinFile (placeText place) ⟨bytes.toArray⟩

end LetLang.CommandLine
