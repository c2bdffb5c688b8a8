import LetLang.CommandLine.Outcome
import LetLang.CommandLine.Request
import LetLang.Compilation

/-!
# Running the command

A run lists the tokens of a source or compiles it and prints or writes the instructions. A
verbose run also logs on the error stream what happens, in the order it happens; the log is
a view of the events and decides nothing. Files change only when a compilation succeeds and
its output can be opened, which empties it. All but the log is written as plain text.
-/

namespace LetLang.CommandLine

def version : String := "1.0.0"

def versionText : String := "stlc, version " ++ version ++ "\n"

def helpText : String := textOfLines [
  "Usage: stlc [OPTIONS] [INPUT_FILE]",
  "",
  "  Compile a let statement to stack-machine instructions.",
  "",
  "  INPUT_FILE holds one statement of the form 'let name = expr;' where expr",
  "  chains numbers and names with '+' and '-'.",
  "",
  "  Examples:",
  "      stlc prog.let                   # Print instructions",
  "      stlc prog.let -o prog.vm        # Write to a file",
  "      stlc -e \"let x = a + 1;\"        # Compile inline text",
  "      stlc --tokens prog.let          # Dump tokens",
  "",
  "  Output instructions:",
  "      push <value>, add, sub, pop <name>",
  "",
  "Options:",
  "  -e, --expr TEXT    Compile this statement instead of reading INPUT_FILE",
  "  -o, --output FILE  Write instructions to this file (default: stdout)",
  "  --tokens           Print the token stream and exit (for debugging)",
  "  --encoding TEXT    Encoding used to decode string literals  [default: utf-8]",
  "  -v, --verbose      Verbose output",
  "  --version          Show the version and exit.",
  "  --help             Show this message and exit."]

/-- The text of a flag that is answered by a text alone. -/
def Flag.answer? : Flag → Option String
  | .version => some versionText
  | .help => some helpText
  | _ => none

/-- The text that answers arguments whatever else they ask for: that of the first flag that
has one. -/
def Arguments.answer? (arguments : Arguments) : Option String :=
  arguments.given.findSome? fun
    | .flag flag => flag.answer?
    | .setting .. => none

def logLine : Event → String
  | .drawn token => "Scanned " ++ token.render
  | .emitted instruction => "Emit: " ++ instruction.line
  | .completed target => "Parsed let statement for '" ++ target ++ "'"

/-- The log as it is written: nothing unless the run is verbose. -/
def logText (verbose : Bool) (lines : List String) : String :=
  if verbose then textOfLines (lines.map ("DEBUG: " ++ ·)) else ""

/-- The files after bytes are written to one of them, and why not all of it was done. A file that
was opened holds what has been stored since, and nothing of what it held before. -/
def Surroundings.write (surroundings : Surroundings) (files : FileTree) (path : Path)
    (bytes : List Byte) : FileTree × Option Failure :=
  match files.target path, surroundings.opening path with
  | .error fault, _ => (files, some (.ofFileFault fault path))
  | .ok _, some fault => (files, some (.ofSystem fault))
  | .ok place, none =>
      match surroundings.storing path bytes with
      | none => (files.set place (.file bytes), none)
      | some (count, fault) =>
          (files.set place (.file (bytes.take count)), some (.ofSystem fault))

namespace Request

def inputName (request : Request) : String :=
  match request.input with
  | .file path => path.render
  | .expression _ => "<expr>"

def source (request : Request) (surroundings : Surroundings) (files : FileTree) :
    Except Failure Source :=
  match request.input with
  | .expression text => .ok ⟨request.inputName, text.toUTF8.toList⟩
  | .file path =>
      match files.read path, surroundings.reading path with
      | .ok bytes, none => .ok ⟨request.inputName, bytes⟩
      | .ok _, some fault => .error (.ofSystem fault)
      | .error fault, _ => .error (.ofFileFault fault path)

/-- The log line that opens the work on a source. -/
def opening (source : Source) : String :=
  "Compiling " ++ source.file ++ " (" ++ toString source.bytes.length ++ " bytes)"

/-- The log line of a finished compilation. -/
def closing (result : Result) : String :=
  "Compiled " ++ result.file ++ ": " ++ toString result.instructions.length ++ " instructions"

/-- The outcome of a run that has printed a text, with a failure if there is one. -/
def leave (request : Request) (files : FileTree) (output : String) (log : List String)
    (failure : Option Failure) : Outcome where
  exitCode := (failure.map Failure.exitCode).getD .success
  output := output
  errors := logText request.verbose log ++ (failure.map (·.report request.verbose)).getD ""
  files := files

/-- List the tokens of a source. Those before a failure are listed too. A token is drawn when the
one before it is printed, so none is drawn after a token that is not taken. -/
def list (request : Request) (surroundings : Surroundings) (files : FileTree) (source : Source) :
    Outcome :=
  let scan := (Scanner.ofSource source request.encoding).scan
  let tokens := scan.tokens.map (·.1)
  let printed := surroundings.print "" (tokens.map fun token => Text.plain (token.listing ++ "\n"))
  request.leave files printed.text
    (opening source :: (tokens.take (printed.pieces + 1)).map (logLine <| .drawn ·))
    ((printed.fault.map Failure.ofSystem).or (scan.fault.map Failure.ofFault))

/-- Print a text at the end of a run. -/
def finish (request : Request) (surroundings : Surroundings) (files : FileTree)
    (log : List String) (text : String) : Outcome :=
  let printed := surroundings.print "" [Text.plain text]
  request.leave files printed.text log (printed.fault.map Failure.ofSystem)

/-- What is printed when a result has been written to a file. -/
def receipt (file : String) (path : Path) : String :=
  "Compiled " ++ file ++ " -> " ++ path.render ++ "\n"

/-- Print a result, or write it to a file and print the receipt. -/
def deliver (request : Request) (surroundings : Surroundings) (files : FileTree)
    (log : List String) (result : Result) : Outcome :=
  match request.output with
  | none => request.finish surroundings files log result.text
  | some path =>
      match surroundings.write files path result.text.toUTF8.toList with
      | (written, some failure) => request.leave written "" log (some failure)
      | (written, none) =>
          request.finish surroundings written log (receipt result.file path)

def compile (request : Request) (surroundings : Surroundings) (files : FileTree)
    (source : Source) : Outcome :=
  let compilation := LetLang.compile ⟨request.encoding, false⟩ source
  let log := opening source :: compilation.events.map logLine
  match compilation.outcome with
  | .error fault => request.leave files "" log (some (.ofFault fault))
  | .ok result => request.deliver surroundings files (log ++ [closing result]) result

def run (request : Request) (surroundings : Surroundings) (files : FileTree) : Outcome :=
  match request.source surroundings files with
  | .error failure => request.leave files "" [] (some failure)
  | .ok source =>
      if request.listing then request.list surroundings files source
      else request.compile surroundings files source

end Request

/-- Run the command with arguments on files. -/
def run (arguments : List String) (files : FileTree) (surroundings : Surroundings := .calm) :
    Outcome :=
  match readArguments arguments with
  | .error fault => ⟨.invalidArguments, "", (UsageFault.argument fault).report, files⟩
  | .ok arguments =>
      match arguments.answer? with
      | some text => ⟨.success, text, "", files⟩
      | none =>
          match arguments.request surroundings files with
          | .error fault => ⟨.invalidArguments, "", fault.report, files⟩
          | .ok request => request.run surroundings files

end LetLang.CommandLine
