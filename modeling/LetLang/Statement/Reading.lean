import LetLang.Scanner
import LetLang.Statement.Stage

/-!
# Reading a statement

A statement is read with one token in hand. Each token is given to the stage that the
statement is in, and the next one is drawn when the stage could use it. The first token
that a stage cannot use ends the reading and stays in hand, as does the last token when
a draw fails. What happened is kept in order as events; the emitted instructions and the
drawn tokens are views of them.
-/

namespace LetLang

/-- One thing that happens while statements are read. -/
inductive Event where
  | drawn (token : Token)
  | emitted (instruction : Instruction)
  /-- A statement for this target has been read to its end. -/
  | completed (target : String)

namespace Event

def token? : Event → Option Token
  | .drawn token => some token
  | _ => none

def instruction? : Event → Option Instruction
  | .emitted instruction => some instruction
  | _ => none

end Event

/-- The outcome of reading one statement. -/
structure Reading where
  /-- All that happened, in order. -/
  events : List Event
  scanner : Scanner
  current : Token
  /-- What kept the statement from being read, if anything did. -/
  fault : Option Fault

namespace Reading

/-- The tokens drawn by a reading. -/
def tokens (reading : Reading) : List Token :=
  reading.events.filterMap Event.token?

def instructions (reading : Reading) : List Instruction :=
  reading.events.filterMap Event.instruction?

def lines (reading : Reading) : List String :=
  reading.instructions.map Instruction.line

/-- The same reading with earlier events in front. -/
def after (reading : Reading) (earlier : List Event) : Reading :=
  { reading with events := earlier ++ reading.events }

end Reading

namespace Statement

/-- The diagnostic of a token that a stage cannot use. It quotes the line the token is on. -/
def unexpected (source : Source) (token : Token) (expectation : Expectation) : Diagnostic :=
  ⟨.unexpectedToken token.text (some expectation.text), token.location,
    token.location.map fun location => source.line location.line⟩

/-- What bounds the draws still to come: the bytes left, and one for a token in hand that is
not the end of the input. -/
def draws (scanner : Scanner) (current : Token) : Nat :=
  scanner.rest.length + if current.kind = .finish then 0 else 1

theorem draws_lt {stage next : Stage} {emitted : List Instruction} {scanner after : Scanner}
    {current token : Token} (hstep : stage.step current = (emitted, .ok next))
    (hdraw : scanner.next = (after, .ok token)) : draws after token < draws scanner current := by
  have hcurrent := Stage.kind_ne_finish_of_step hstep
  have hlength := Scanner.length_of_next hdraw
  unfold draws
  by_cases hfinish : token.kind = .finish
  · simp only [hcurrent, hfinish, if_true, if_false]
    omega
  · have := hlength.2 hfinish
    simp only [hcurrent, hfinish, if_false]
    omega

/-- Read on from a stage with a token in hand. -/
def readFrom (stage : Stage) (scanner : Scanner) (current : Token) : Reading :=
  match hstep : stage.step current with
  | (emitted, .error expectation) =>
      ⟨emitted.map .emitted, scanner, current,
        some (.diagnostic (unexpected scanner.source current expectation))⟩
  | (emitted, .ok next) =>
      match hdraw : scanner.next with
      | (after, .error fault) => ⟨emitted.map .emitted, after, current, some fault⟩
      | (after, .ok token) =>
          have := draws_lt hstep hdraw
          match next with
          | .complete target =>
              ⟨emitted.map .emitted ++ [.drawn token, .completed target], after, token, none⟩
          | next => (readFrom next after token).after (emitted.map .emitted ++ [.drawn token])
termination_by draws scanner current

/-- Read one statement, starting with the token in hand. -/
def read (scanner : Scanner) (current : Token) : Reading :=
  readFrom .start scanner current

end Statement

end LetLang
