import LetLang.Instruction
import LetLang.Token.Basic

/-!
# Stages of a statement

A statement is the keyword `let`, a name, an equals sign, operands joined by plus and
minus signs, and a semicolon. While it is read it is in one of six stages. A token
either takes it to its next stage or is not what the stage needs, and instructions are
emitted on the way: an operand is pushed when it is met, an operator is applied when the
token after its right operand is known, and the result is popped before the semicolon
is asked for.
-/

namespace LetLang.Statement

/-- How far a statement has been read. -/
inductive Stage where
  | start
  /-- The name is due. -/
  | target
  /-- The equals sign is due. -/
  | equals (target : String)
  /-- An operand is due, as the right side of the operator if there is one. -/
  | operand (target : String) (pending : Option Operator)
  /-- An operand has been read; the operator before it has not been applied. -/
  | chain (target : String) (pending : Option Operator)
  /-- The semicolon has been read. -/
  | complete (target : String)
  deriving DecidableEq, Repr

/-- What a stage needs. -/
inductive Expectation where
  | letWord
  | identifier
  | equals
  | operand
  | semicolon
  deriving DecidableEq, Repr

def Expectation.text : Expectation → String
  | .letWord => "'let'"
  | .identifier => "identifier"
  | .equals => "'='"
  | .operand => "number or identifier"
  | .semicolon => "';'"

namespace Stage

/-- The instruction of an operator whose right operand has been pushed. -/
def applied (pending : Option Operator) : List Instruction :=
  (pending.map .apply).toList

/-- What a token does in a stage: the instructions it has emitted, and the next stage or
what was needed instead. -/
def step (stage : Stage) (token : Token) : List Instruction × Except Expectation Stage :=
  match stage with
  | .start =>
      if token.kind = .keyword .let then ([], .ok .target) else ([], .error .letWord)
  | .target =>
      if token.kind = .identifier then ([], .ok (.equals token.text)) else ([], .error .identifier)
  | .equals name =>
      if token.kind = .mark .equals then ([], .ok (.operand name none)) else ([], .error .equals)
  | .operand name pending =>
      if token.kind = .number ∨ token.kind = .identifier then
        ([.push token.text], .ok (.chain name pending))
      else ([], .error .operand)
  | .chain name pending =>
      if token.kind = .mark .plus then (applied pending, .ok (.operand name (some .add)))
      else if token.kind = .mark .minus then (applied pending, .ok (.operand name (some .sub)))
      else if token.kind = .mark .semicolon then
        (applied pending ++ [.pop name], .ok (.complete name))
      else (applied pending ++ [.pop name], .error .semicolon)
  | .complete _ => ([], .error .letWord)

theorem kind_ne_finish_of_step {stage next : Stage} {token : Token}
    {emitted : List Instruction} (hstep : stage.step token = (emitted, .ok next)) :
    token.kind ≠ .finish := by
  intro hfinish
  cases stage <;> simp [step, hfinish] at hstep

end Stage

end LetLang.Statement
