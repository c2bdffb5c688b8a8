import LetLang.Diagnostic
import LetLang.Encoding.Basic

/-!
# Faults

A fault is what stops the reading of a program: something wrong with the program, or an
encoding that its string literals cannot be decoded by.
-/

namespace LetLang

/-- What stops the reading of a program. -/
inductive Fault where
  | diagnostic (report : Diagnostic)
  | encoding (cause : Encoding.Fault)
  deriving DecidableEq, Repr

def Fault.message : Fault → String
  | .diagnostic report => report.render
  | .encoding cause => cause.message

end LetLang
