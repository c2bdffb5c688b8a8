import LetLang.CommandLine.Arguments
import LetLang.CommandLine.Surroundings
import LetLang.Files.Tree
import LetLang.Text.Control

/-!
# Requests

Arguments that were taken apart are checked against the encodings there are, the files and the
rights to read them, and make a request: what to compile, how, and where to write it. Of several
faults the first in a fixed order is reported: the settings in the order they are given, then the
input file, then operands too many, and last the choice between an input file and an expression.
-/

namespace LetLang.CommandLine

/-- Why arguments are refused. -/
inductive UsageFault where
  | argument (fault : ArgumentFault)
  | unknownEncoding (name : String)
  | outputIsDirectory (path : String)
  | outputIsUnreadable (path : String)
  | inputIsMissing (path : String)
  | inputIsDirectory (path : String)
  | inputIsUnreadable (path : String)
  | extraOperands (operands : List String)
  /-- Both or neither of an input file and an expression are given. -/
  | inputChoice
  deriving DecidableEq, Repr

namespace UsageFault

def message : UsageFault → String
  | .argument fault => fault.message
  | .unknownEncoding name => "Invalid value for '--encoding': unknown encoding: " ++ name
  | .outputIsDirectory path =>
      "Invalid value for '-o' / '--output': File " ++ Text.quoted path ++ " is a directory."
  | .outputIsUnreadable path =>
      "Invalid value for '-o' / '--output': File " ++ Text.quoted path ++ " is not readable."
  | .inputIsMissing path =>
      "Invalid value for '[INPUT_FILE]': File " ++ Text.quoted path ++ " does not exist."
  | .inputIsDirectory path =>
      "Invalid value for '[INPUT_FILE]': File " ++ Text.quoted path ++ " is a directory."
  | .inputIsUnreadable path =>
      "Invalid value for '[INPUT_FILE]': File " ++ Text.quoted path ++ " is not readable."
  | .extraOperands operands =>
      (if operands.length = 1 then "Got unexpected extra argument ("
        else "Got unexpected extra arguments (") ++ " ".intercalate operands ++ ")"
  | .inputChoice => "give exactly one of INPUT_FILE or --expr"

/-- The reminder of the usage in front of most faults. -/
def usage : String :=
  "Usage: stlc [OPTIONS] [INPUT_FILE]\nTry 'stlc --help' for help.\n\n"

/-- Whether the reminder is given. A value missing or unwanted is reported alone. -/
def remindsOfUsage : UsageFault → Bool
  | .argument (.missingValue _) | .argument (.unwantedValue _) => false
  | _ => true

def report (fault : UsageFault) : String :=
  (if fault.remindsOfUsage then usage else "") ++ Text.plain ("Error: " ++ fault.message) ++ "\n"

end UsageFault

inductive Input where
  | file (path : Path)
  | expression (text : String)
  deriving DecidableEq, Repr

/-- Why the system does not hand out an input, if it does not. -/
def Surroundings.refusal? (surroundings : Surroundings) : Input → Option SystemFault
  | .file path => surroundings.reading path
  | .expression _ => none

/-- What a run of the command is to do. -/
structure Request where
  input : Input
  output : Option Path
  encoding : Decoder
  /-- List the tokens instead of compiling. -/
  listing : Bool
  verbose : Bool

namespace Arguments

/-- Check the value of a setting. An output that does not exist yet is in order. -/
def checkSetting (arguments : Arguments) (surroundings : Surroundings) (files : FileTree)
    (setting : Setting) : Except UsageFault Unit :=
  match setting, arguments.value? setting with
  | .encoding, some name =>
      if surroundings.Knows name then .ok () else .error (.unknownEncoding name)
  | .output, some path =>
      match files.status path with
      | .ok .directory => .error (.outputIsDirectory path)
      | .ok (.file _) =>
          if surroundings.mayRead path then .ok () else .error (.outputIsUnreadable path)
      | .error _ => .ok ()
  | _, _ => .ok ()

def checkSettings (arguments : Arguments) (surroundings : Surroundings) (files : FileTree) :
    List Setting → Except UsageFault Unit
  | [] => .ok ()
  | setting :: rest =>
      match arguments.checkSetting surroundings files setting with
      | .error fault => .error fault
      | .ok () => arguments.checkSettings surroundings files rest

def checkInput (surroundings : Surroundings) (files : FileTree) (path : String) :
    Except UsageFault Path :=
  match files.status path with
  | .error _ => .error (.inputIsMissing path)
  | .ok .directory => .error (.inputIsDirectory path)
  | .ok (.file _) =>
      if surroundings.mayRead path then .ok (.parse path) else .error (.inputIsUnreadable path)

def inputFile (arguments : Arguments) (surroundings : Surroundings) (files : FileTree) :
    Except UsageFault (Option Path) :=
  match arguments.operands with
  | [] => .ok none
  | first :: rest =>
      match checkInput surroundings files first with
      | .error fault => .error fault
      | .ok path => if rest.isEmpty then .ok (some path) else .error (.extraOperands rest)

def chooseInput (arguments : Arguments) (file : Option Path) : Except UsageFault Input :=
  match file, arguments.value? .expression with
  | some path, none => .ok (.file path)
  | none, some text => .ok (.expression text)
  | _, _ => .error .inputChoice

/-- The request that arguments make. -/
def request (arguments : Arguments) (surroundings : Surroundings) (files : FileTree) :
    Except UsageFault Request := do
  arguments.checkSettings surroundings files arguments.settings
  let file ← arguments.inputFile surroundings files
  let input ← arguments.chooseInput file
  return {
    input := input
    output := (arguments.value? .output).map Path.parse
    encoding := surroundings.decoder ((arguments.value? .encoding).getD Encoding.defaultName)
    listing := arguments.has .tokens
    verbose := arguments.has .verbose }

end Arguments

end LetLang.CommandLine
