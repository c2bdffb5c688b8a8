import LetLang.Text.Quoted

/-!
# Arguments of the command line

Arguments are options and operands in any order. A long option starts with two hyphens and
may have its value after an equals sign; short options of one letter may share an argument,
and the rest of the argument after one that takes a value is that value. Otherwise a value is
the next argument, whatever that looks like. Two hyphens alone end the options, and one
hyphen alone is an operand.
-/

namespace LetLang.CommandLine

/-- The options that are given or not. -/
inductive Flag where
  | tokens
  | verbose
  | version
  | help
  deriving DecidableEq, Repr

/-- The options that take a value. -/
inductive Setting where
  | expression
  | output
  | encoding
  deriving DecidableEq, Repr

inductive Switch where
  | flag (flag : Flag)
  | setting (setting : Setting)
  deriving DecidableEq, Repr

def longSwitches : List (String × Switch) := [
  ("--expr", .setting .expression), ("--output", .setting .output),
  ("--tokens", .flag .tokens), ("--encoding", .setting .encoding),
  ("--verbose", .flag .verbose), ("--version", .flag .version), ("--help", .flag .help)]

def shortSwitches : List (Char × Switch) := [
  ('e', .setting .expression), ('o', .setting .output), ('v', .flag .verbose)]

/-- One option as it was met, with the value of a setting. -/
inductive Given where
  | flag (flag : Flag)
  | setting (setting : Setting) (value : String)
  deriving DecidableEq, Repr

inductive ArgumentFault where
  | unknownOption (spelling : String)
  | missingValue (spelling : String)
  | unwantedValue (spelling : String)
  deriving DecidableEq, Repr

/-- The text of a fault. Long options that an unknown one comes close to are not suggested. -/
def ArgumentFault.message : ArgumentFault → String
  | .unknownOption spelling => "No such option " ++ Text.quoted spelling ++ "."
  | .missingValue spelling => "Option " ++ Text.quoted spelling ++ " requires an argument."
  | .unwantedValue spelling => "Option " ++ Text.quoted spelling ++ " does not take a value."

/-- Arguments taken apart: the options and the operands, each in the order they were met. -/
structure Arguments where
  given : List Given
  operands : List String
  deriving DecidableEq, Repr

namespace Arguments

def withGiven (options : List Given) (arguments : Arguments) : Arguments :=
  { arguments with given := options ++ arguments.given }

def withOperand (operand : String) (arguments : Arguments) : Arguments :=
  { arguments with operands := operand :: arguments.operands }

end Arguments

/-- One argument taken apart: the options in it, and a setting at its end that still waits
for its value, with the spelling to report it by. -/
structure Bundle where
  given : List Given
  waiting : Option (Setting × String)
  deriving DecidableEq, Repr

/-- Take apart the letters of an argument of short options. -/
def readShort : List Char → Except ArgumentFault Bundle
  | [] => .ok ⟨[], none⟩
  | letter :: rest =>
      let spelling := String.ofList ['-', letter]
      match shortSwitches.lookup letter with
      | none => .error (.unknownOption spelling)
      | some (.setting setting) =>
          if rest.isEmpty then .ok ⟨[], some (setting, spelling)⟩
          else .ok ⟨[.setting setting (String.ofList rest)], none⟩
      | some (.flag flag) =>
          match readShort rest with
          | .error fault => .error fault
          | .ok bundle => .ok ⟨.flag flag :: bundle.given, bundle.waiting⟩

/-- Take apart an argument of a long option. -/
def readLong (spelling : String) (value : Option String) :
    Option (Except ArgumentFault Bundle) :=
  (longSwitches.lookup spelling).map fun
    | .flag flag =>
        match value with
        | some _ => .error (.unwantedValue spelling)
        | none => .ok ⟨[.flag flag], none⟩
    | .setting setting =>
        match value with
        | some value => .ok ⟨[.setting setting value], none⟩
        | none => .ok ⟨[], some (setting, spelling)⟩

/-- An argument before its first equals sign, and what follows the sign. -/
def splitValue (text : List Char) : String × Option String :=
  let value :=
    match text.dropWhile (· != '=') with
    | [] => none
    | _ :: value => some (String.ofList value)
  (String.ofList (text.takeWhile (· != '=')), value)

def readOption (text : List Char) : Except ArgumentFault Bundle :=
  let (spelling, value) := splitValue text
  match readLong spelling value with
  | some outcome => outcome
  | none =>
      match text with
      | '-' :: '-' :: _ => .error (.unknownOption spelling)
      | _ => readShort text.tail

/-- Whether an argument is an option: it starts with a hyphen and has more to it. -/
def isOption (text : List Char) : Bool :=
  text.head? == some '-' && !text.tail.isEmpty

def readArguments : List String → Except ArgumentFault Arguments
  | [] => .ok ⟨[], []⟩
  | argument :: rest =>
      if argument == "--" then .ok ⟨[], rest⟩
      else if isOption argument.toList then
        match readOption argument.toList with
        | .error fault => .error fault
        | .ok ⟨given, none⟩ => (readArguments rest).map (·.withGiven given)
        | .ok ⟨given, some (setting, spelling)⟩ =>
            match rest with
            | [] => .error (.missingValue spelling)
            | value :: rest =>
                (readArguments rest).map (·.withGiven (given ++ [.setting setting value]))
      else (readArguments rest).map (·.withOperand argument)

namespace Arguments

def has (arguments : Arguments) (flag : Flag) : Bool :=
  arguments.given.contains (.flag flag)

def values (arguments : Arguments) (setting : Setting) : List String :=
  arguments.given.filterMap fun
    | .setting other value => if other = setting then some value else none
    | .flag _ => none

/-- The value of a setting: the last one given. -/
def value? (arguments : Arguments) (setting : Setting) : Option String :=
  (arguments.values setting).getLast?

def settings (arguments : Arguments) : List Setting :=
  (arguments.given.filterMap fun
    | .setting setting _ => some setting
    | .flag _ => none).eraseDups

end Arguments

end LetLang.CommandLine
