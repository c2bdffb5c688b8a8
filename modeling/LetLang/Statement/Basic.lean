import LetLang.Machine
import LetLang.Statement.Stage

/-!
# Statements

A statement as a tree: the target, the first operand, and the operators with their right
operands. It has a value in a store, the tokens it is written with, and the instructions it
is compiled to. The main statement is that running its instructions stores its value and
leaves the stack as it was.
-/

namespace LetLang

/-- A statement that stores a sum and difference of operands under a name. -/
structure Statement where
  target : String
  first : String
  rest : List (Operator × String)
  deriving DecidableEq, Repr

namespace Statement

def markOf : Operator → Mark
  | .add => .plus
  | .sub => .minus

/-- The kind of token that an operand is. -/
def kindOf (operand : String) : Kind :=
  if isNumeral operand then .number else .identifier

def linkTokens (link : Operator × String) : List (Kind × String) :=
  [(.mark (markOf link.1), latinText [(markOf link.1).byte]), (kindOf link.2, link.2)]

/-- The tokens of a statement by kind and text. -/
def tokens (statement : Statement) : List (Kind × String) :=
  [(.keyword .let, Keyword.let.word), (.identifier, statement.target),
    (.mark .equals, latinText [Mark.equals.byte]),
    (kindOf statement.first, statement.first)] ++
  statement.rest.flatMap linkTokens ++
  [(.mark .semicolon, latinText [Mark.semicolon.byte])]

def linkInstructions (link : Operator × String) : List Instruction :=
  [.push link.2, .apply link.1]

def instructions (statement : Statement) : List Instruction :=
  .push statement.first :: statement.rest.flatMap linkInstructions ++ [.pop statement.target]

/-- The value of operators and operands to the right of a value, from left to right. -/
def linkValue (store : Store) (value : Int) (link : Operator × String) : Int :=
  link.1.result value (store.value link.2)

def value (store : Store) (statement : Statement) : Int :=
  statement.rest.foldl (linkValue store) (store.value statement.first)

/-- Operators and operands work on the topmost value and leave the rest alone. -/
theorem run_links (links : List (Operator × String)) (stack : List Int) (store : Store)
    (value : Int) :
    (Machine.mk (value :: stack) store).run (links.flatMap linkInstructions) =
      some ⟨links.foldl (linkValue store) value :: stack, store⟩ := by
  induction links generalizing value with
  | nil => rfl
  | cons link rest ih => exact ih (linkValue store value link)

/-- The instructions of a statement store its value and leave the stack as it was. -/
theorem run_instructions (statement : Statement) (stack : List Int) (store : Store) :
    (Machine.mk stack store).run statement.instructions =
      some ⟨stack, store.assign statement.target (statement.value store)⟩ := by
  have hlinks := run_links statement.rest stack store (store.value statement.first)
  simp only [instructions, List.cons_append, Machine.run, Machine.step, Machine.run_append, hlinks,
    Option.bind_some]
  rfl

end Statement

end LetLang
