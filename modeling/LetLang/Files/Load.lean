import LetLang.Compilation
import LetLang.Files.Tree

/-!
# Sources from files

A source file is found by the normal form of its path. Its source is called by the name
that it was asked for by, which need not be in normal form.
-/

namespace LetLang

/-- Why a source file cannot be loaded. -/
inductive LoadFault where
  /-- There is no such file. -/
  | missing (name : String)
  /-- The file cannot be read. -/
  | unreadable (fault : FileFault) (path : String)
  deriving DecidableEq, Repr

def LoadFault.message : LoadFault → String
  | .missing name => "Source file not found: " ++ name
  | .unreadable fault path => fault.message path

/-- The source that a file holds, under a name. -/
def load (files : FileTree) (name : String) (path : Path) : Except LoadFault Source :=
  match files.find path with
  | .error .nameTooLong => .error (.unreadable .nameTooLong path.render)
  | .error _ => .error (.missing name)
  | .ok .directory => .error (.unreadable .isDirectory path.render)
  | .ok (.file bytes) => .ok ⟨name, bytes⟩

def compileFile (options : Options) (files : FileTree) (name : String) (path : Path) :
    Except LoadFault Compilation :=
  (load files name path).map (compile options)

end LetLang
