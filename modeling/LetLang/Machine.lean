import LetLang.Instruction

/-!
# The stack machine

What instructions mean. A machine has a stack of integers and a store of named values; an
instruction that needs more values than the stack holds stops it.
-/

namespace LetLang

/-- The values that names stand for. -/
abbrev Store := String → Int

/-- The store with another value under a name. -/
def Store.assign (store : Store) (name : String) (value : Int) : Store :=
  fun other => if other = name then value else store other

/-- The number that decimal digits are written for. -/
def decimal (digits : String) : Int :=
  digits.toList.foldl (fun value digit => value * 10 + (digit.toNat - '0'.toNat : Nat)) 0

/-- Whether an operand is a number: it starts with a digit. -/
def isNumeral (operand : String) : Bool :=
  (operand.toList.head?.map Char.isDigit).getD false

/-- The value of an operand: that of a number is what it is written for, and that of a name
is in the store. -/
def Store.value (store : Store) (operand : String) : Int :=
  if isNumeral operand then decimal operand else store operand

def Operator.result : Operator → Int → Int → Int
  | .add, left, right => left + right
  | .sub, left, right => left - right

/-- A machine between two instructions. The topmost value comes first. -/
structure Machine where
  stack : List Int
  store : Store

namespace Machine

/-- Carry out one instruction, if the stack has the values for it. -/
def step (machine : Machine) : Instruction → Option Machine
  | .push operand =>
      some { machine with stack := machine.store.value operand :: machine.stack }
  | .apply operator =>
      match machine.stack with
      | right :: left :: rest => some { machine with stack := operator.result left right :: rest }
      | _ => none
  | .pop target =>
      match machine.stack with
      | value :: rest => some ⟨rest, machine.store.assign target value⟩
      | [] => none

def run (machine : Machine) : List Instruction → Option Machine
  | [] => some machine
  | instruction :: rest =>
      match machine.step instruction with
      | some next => next.run rest
      | none => none

theorem run_append (machine : Machine) (first second : List Instruction) :
    machine.run (first ++ second) = (machine.run first).bind (·.run second) := by
  induction first generalizing machine with
  | nil => rfl
  | cons instruction rest ih =>
      simp only [List.cons_append, run]
      cases machine.step instruction with
      | none => rfl
      | some next => exact ih next

end Machine

end LetLang
