/-!
# Paths

A path names a file by the directories that lead to it. Its normal form has one slash
between two parts, no part that is a single full stop, and no slash at its end. A part
of two full stops stays: what it leads to depends on the files.
-/

namespace LetLang

/-- A path in normal form. -/
structure Path where
  /-- The slashes that an absolute path starts with, and nothing for a relative path. -/
  root : String
  parts : List String
  deriving DecidableEq, Repr

namespace Path

/-- The pieces of a path between its slashes. -/
def pieces (text : String) : List String :=
  (text.toList.splitOn '/').map String.ofList

/-- Whether a piece leads anywhere. -/
def isPart (piece : String) : Bool :=
  piece != "" && piece != "."

/-- The root of a path. Exactly two slashes in front are a root of their own; any other
number is the same as one. -/
def rootOf (text : String) : String :=
  match (text.toList.takeWhile (· == '/')).length with
  | 0 => ""
  | 2 => "//"
  | _ => "/"

def parse (text : String) : Path :=
  ⟨rootOf text, (pieces text).filter isPart⟩

/-- The text of a path. The directory that relative paths start from is a full stop. -/
def render (path : Path) : String :=
  if path.root == "" && path.parts.isEmpty then "."
  else path.root ++ "/".intercalate path.parts

/-- Whether a text asks for a directory: it ends in a slash or in a single full stop. -/
def asksForDirectory (text : String) : Bool :=
  ((pieces text).getLast?.map (!isPart ·)).getD false

/-- The most bytes that a part of a path may have. -/
def partLimit : Nat := 255

/-- The most bytes that the text of a path may have. -/
def textLimit : Nat := 4095

end Path

end LetLang
