import LetLang.CommandLine.Snapshot

/-!
# The command
-/

/-- Run the command on the files that its arguments name. It knows the encodings of the table. -/
def main (arguments : List String) : IO UInt32 := do
  let files ← LetLang.CommandLine.snapshot arguments
  let outcome := LetLang.CommandLine.run arguments files
  LetLang.CommandLine.store files outcome.files
  IO.print outcome.output
  IO.eprint outcome.errors
  return outcome.exitCode.number.toUInt32
