import LetLang.Sink
import LetLang.Statement.Reading

/-!
# Compilation

A source is compiled by reading one statement from its start. What follows the token after
the semicolon is not looked at. A compilation that fails has no result.
-/

namespace LetLang

/-- How to compile. -/
structure Options where
  /-- What string literals are decoded by. -/
  encoding : Decoder
  /-- Whether a result lists the tokens that were read. -/
  trace : Bool

/-- The options used where none are given. -/
def Options.standard : Options := ⟨Encoding.defaultName, false⟩

/-- What a statement was compiled to. -/
structure Result where
  file : String
  instructions : List String
  tokens : List Token

def Result.text (result : Result) : String :=
  textOfLines result.instructions

/-- A finished compilation: all that happened, and the result or what was wrong. -/
structure Compilation where
  events : List Event
  outcome : Except Fault Result

/-- Compile the statement at the start of a source. -/
def compile (options : Options) (source : Source) : Compilation :=
  match (Scanner.ofSource source options.encoding).next with
  | (_, .error fault) => ⟨[], .error fault⟩
  | (scanner, .ok first) =>
      let reading := (Statement.read scanner first).after [.drawn first]
      let outcome :=
        match reading.fault with
        | some fault => .error fault
        | none => .ok ⟨source.file, reading.lines, if options.trace then reading.tokens else []⟩
      ⟨reading.events, outcome⟩

def instructionsOf (source : Source) : Except Fault (List String) :=
  (compile .standard source).outcome.map Result.instructions

/-- The lines that one call of a parser leaves in an empty sink. -/
def parsedLines (source : Source) : Except Fault (List String) :=
  match (Scanner.ofSource source Encoding.defaultName).next with
  | (_, .error fault) => .error fault
  | (scanner, .ok first) =>
      let reading := Statement.read scanner first
      let sink := (Sink.list []).emitAll reading.lines
      match reading.fault with
      | some fault => .error fault
      | none => .ok (sink.lines?.getD [])

end LetLang
