import LetLang.Proofs.CommandRuns
import LetLang.Proofs.Writing

/-!
# What a run does to the files

Only a run that compiles a source and has an output to write to changes a file, and only the file at
the output. If such a run ends well, the bytes there are the whole text of the result, as the source
was read before. A run that fails leaves all files as they are and prints nothing, unless it lists
tokens or the system takes a part of the result and no more.
-/

namespace LetLang.CommandLine

variable {surroundings : Surroundings} {line : List String} {files : FileTree} {source : Source}
  {outcome : Outcome}

namespace Request

variable {request : Request}

end Request

/-- Whether a command line has a flag, as far as it can be read. -/
def Gives (line : List String) (flag : Flag) : Prop :=
  ∃ arguments, readArguments line = .ok arguments ∧ arguments.has flag = true

theorem gives_iff {arguments : Arguments} (hreads : readArguments line = .ok arguments)
    (flag : Flag) : Gives line flag ↔ arguments.has flag = true := by
  constructor
  · rintro ⟨other, hother, hflag⟩
    rw [hreads] at hother
    obtain rfl := Except.ok.inj hother
    exact hflag
  · intro hflag
    exact ⟨arguments, hreads, hflag⟩

namespace Ran

end Ran

end LetLang.CommandLine
