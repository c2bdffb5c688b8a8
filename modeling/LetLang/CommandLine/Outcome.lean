import LetLang.CommandLine.Surroundings
import LetLang.Fault
import LetLang.Files.Tree
import LetLang.Text.Control

/-!
# Outcomes of the command

A run of the command ends with an exit code, what it wrote to its two streams, and the files
as it leaves them. A failure is reported on the error stream, and its kind decides the code.
-/

namespace LetLang.CommandLine

/-- The exit codes of the command. -/
inductive ExitCode where
  | success
  /-- The program is at fault. -/
  | buildError
  /-- The arguments are at fault, or a file is not there. -/
  | invalidArguments
  /-- Anything else went wrong. -/
  | internalError
  deriving DecidableEq, Repr

namespace ExitCode

def all : List ExitCode := [.success, .buildError, .invalidArguments, .internalError]

def name : ExitCode → String
  | .success => "SUCCESS"
  | .buildError => "BUILD_ERROR"
  | .invalidArguments => "INVALID_ARGS"
  | .internalError => "INTERNAL_ERROR"

def number : ExitCode → Nat
  | .success => 0
  | .buildError => 1
  | .invalidArguments => 2
  | .internalError => 3

end ExitCode

inductive Failure where
  | program (report : Diagnostic)
  /-- A file is not there, or there is no right to it. -/
  | unavailable (message : String)
  | unforeseen (message : String)
  deriving DecidableEq, Repr

namespace Failure

/-- An encoding that was accepted and cannot decode is not foreseen. -/
def ofFault : Fault → Failure
  | .diagnostic report => .program report
  | .encoding cause => .unforeseen cause.message

/-- Only a file that is not there is a matter of the arguments. -/
def ofFileFault (fault : FileFault) (path : Path) : Failure :=
  match fault with
  | .missing => .unavailable (fault.message path.render)
  | _ => .unforeseen (fault.message path.render)

def ofSystem : SystemFault → Failure
  | .denied message => .unavailable message
  | .broken message => .unforeseen message

/-- The code that a run ends with after a failure. -/
def exitCode : Failure → ExitCode
  | .program _ => .buildError
  | .unavailable _ => .invalidArguments
  | .unforeseen _ => .internalError

/-- The heading of the record of calls that a verbose run adds to an unforeseen failure. -/
def traceHeading : String := "Traceback (most recent call last):\n"

def message : Failure → String
  | .program report => report.render
  | .unavailable message => "Error: " ++ message
  | .unforeseen message => "Internal error: " ++ message

def isTraced : Failure → Bool
  | .unforeseen _ => true
  | _ => false

def report (verbose : Bool) (failure : Failure) : String :=
  Text.plain failure.message ++ "\n" ++
    if verbose && failure.isTraced then traceHeading else ""

end Failure

/-- How a run of the command ends. -/
structure Outcome where
  exitCode : ExitCode
  output : String
  errors : String
  files : FileTree
  deriving DecidableEq, Repr

end LetLang.CommandLine
