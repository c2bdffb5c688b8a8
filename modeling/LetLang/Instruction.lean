/-!
# Instructions

A stack machine carries out one instruction per line. This module holds the
instructions, the operators that two of them come from, and their written form.
-/

namespace LetLang

/-- The operators that join the operands of a statement. -/
inductive Operator where
  | add
  | sub
  deriving DecidableEq, Repr

/-- One instruction for a stack machine. -/
inductive Instruction where
  /-- Push the value of a number or of a name. -/
  | push (operand : String)
  /-- Replace the two topmost values by the result of the operator. -/
  | apply (operator : Operator)
  /-- Take the topmost value and store it under a name. -/
  | pop (target : String)
  deriving DecidableEq, Repr

def Operator.word : Operator → String
  | .add => "add"
  | .sub => "sub"

def Instruction.line : Instruction → String
  | .push operand => "push " ++ operand
  | .apply operator => operator.word
  | .pop target => "pop " ++ target

/-- Lines as text. Every line is ended by a line feed. -/
def textOfLines (lines : List String) : String :=
  String.join (lines.map (· ++ "\n"))

theorem textOfLines_cons (line : String) (lines : List String) :
    textOfLines (line :: lines) = line ++ "\n" ++ textOfLines lines := by
  simp [textOfLines]

/-- Lines with line feeds between them, and one after the last line if there is one. -/
def joinLines (lines : List String) : String :=
  if lines = [] then "" else "\n".intercalate lines ++ "\n"

/-- It is the same to write each line with a line feed and to join the lines in the end. -/
theorem textOfLines_eq_joinLines (lines : List String) : textOfLines lines = joinLines lines := by
  induction lines with
  | nil => rfl
  | cons line rest ih =>
      rw [textOfLines_cons, ih, joinLines, joinLines, if_neg (List.cons_ne_nil line rest)]
      split
      next hnil => rw [hnil, String.intercalate_singleton, String.append_empty]
      next hrest =>
        rw [String.intercalate_cons_of_ne_nil hrest, String.append_assoc, String.append_assoc,
          String.append_assoc]

end LetLang
