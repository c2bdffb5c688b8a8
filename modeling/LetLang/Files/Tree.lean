import LetLang.Byte
import LetLang.Files.Path
import LetLang.Text.Quoted

/-!
# Files

The files that a program can see, as a value. Each file and directory has a place: the
names that lead to it from the working directory. A path leads to a place one part at a
time; every place on the way has to be a directory, and no part may be too long to be
looked up there.
-/

namespace LetLang

/-- What is found at a place. -/
inductive Node where
  | file (bytes : List Byte)
  | directory
  deriving DecidableEq, Repr

/-- The names that lead to a file. A place above the working directory starts with two
full stops, and the place of an absolute path with a slash. -/
abbrev Place := List String

/-- The files and directories at their places. -/
structure FileTree where
  entries : List (Place × Node)
  deriving DecidableEq, Repr

/-- Why a path is of no use. -/
inductive FileFault where
  | missing
  | notDirectory
  | isDirectory
  /-- The path or one of its parts has more bytes than are allowed. -/
  | nameTooLong
  deriving DecidableEq, Repr

/-- The text of a fault at a path. -/
def FileFault.message (fault : FileFault) (path : String) : String :=
  let text :=
    match fault with
    | .missing => "[Errno 2] No such file or directory: "
    | .notDirectory => "[Errno 20] Not a directory: "
    | .isDirectory => "[Errno 21] Is a directory: "
    | .nameTooLong => "[Errno 36] File name too long: "
  text ++ Text.quoted path

namespace FileTree

def empty : FileTree := ⟨[]⟩

/-- Whether a place is a directory whatever files there are: the working directory, those
above it, and the root. -/
def isAncestor (place : Place) : Bool :=
  place == ["/"] || place.all (· == "..")

/-- What is found at a place, if anything. -/
def node? (tree : FileTree) (place : Place) : Option Node :=
  if isAncestor place then some .directory else tree.entries.lookup place

def parent (place : Place) : Place :=
  if place == ["/"] then place
  else if isAncestor place then ".." :: place
  else place.dropLast

/-- Follow the parts of a path from a directory. What the last part leads to need not exist. -/
def follow (tree : FileTree) (place : Place) : List String → Except FileFault Place
  | [] => .ok place
  | part :: rest =>
      if part == ".." then tree.follow (parent place) rest
      else if Path.partLimit < part.utf8ByteSize then .error .nameTooLong
      else
        let next := place ++ [part]
        if rest.isEmpty then .ok next
        else
          match tree.node? next with
          | some .directory => tree.follow next rest
          | some (.file _) => .error .notDirectory
          | none => .error .missing

/-- The place that a path leads to. A path that is too long as a whole leads nowhere. -/
def resolve (tree : FileTree) (path : Path) : Except FileFault Place :=
  if Path.textLimit < path.render.utf8ByteSize then .error .nameTooLong
  else tree.follow (if path.root == "" then [] else ["/"]) path.parts

def find (tree : FileTree) (path : Path) : Except FileFault Node :=
  match tree.resolve path with
  | .error fault => .error fault
  | .ok place =>
      match tree.node? place with
      | some node => .ok node
      | none => .error .missing

/-- What a text leads to before it is brought into normal form: nothing for the empty text,
and only a directory where the text asks for one. -/
def status (tree : FileTree) (text : String) : Except FileFault Node :=
  if text == "" then .error .missing
  else if Path.textLimit < text.utf8ByteSize then .error .nameTooLong
  else
    match tree.find (.parse text) with
    | .ok (.file bytes) =>
        if Path.asksForDirectory text then .error .notDirectory else .ok (.file bytes)
    | other => other

def read (tree : FileTree) (path : Path) : Except FileFault (List Byte) :=
  match tree.find path with
  | .error fault => .error fault
  | .ok .directory => .error .isDirectory
  | .ok (.file bytes) => .ok bytes

/-- The tree with another node at a place. -/
def set (tree : FileTree) (place : Place) (node : Node) : FileTree :=
  ⟨(place, node) :: tree.entries.filter (·.1 != place)⟩

/-- The place of a file that is to be written. -/
def target (tree : FileTree) (path : Path) : Except FileFault Place :=
  match tree.resolve path with
  | .error fault => .error fault
  | .ok place =>
      match tree.node? place with
      | some .directory => .error .isDirectory
      | _ => .ok place

/-- Add a node and the directories that lead to it. -/
def add (tree : FileTree) (place : Place) (node : Node) : FileTree :=
  let above := (List.range place.length).map place.take
  let missing := above.filter fun place => (tree.node? place).isNone
  (missing.foldl (fun tree place => tree.set place .directory) tree).set place node

/-- The files of a tree that an earlier tree has not, or has with other bytes. -/
def changes (before after : FileTree) : List (Place × List Byte) :=
  after.entries.filterMap fun (place, node) =>
    match node with
    | .file bytes =>
        if before.node? place == some (.file bytes) then none else some (place, bytes)
    | .directory => none

end FileTree

end LetLang
