import LetLang.Proofs.Acceptance

/-!
# Running what was compiled

Lines are carried out as the instructions they are written for. The lines of an accepted source
store the value of its statement, whatever the stack holds and whatever the names stand for.
They neither need nor touch the values below, and two places on the stack are enough.
-/

namespace LetLang

/-- The instruction that a line is written for, if there is one. -/
def Instruction.ofLine? (line : String) : Option Instruction :=
  match line.toList with
  | ['a', 'd', 'd'] => some (.apply .add)
  | ['s', 'u', 'b'] => some (.apply .sub)
  | 'p' :: 'u' :: 's' :: 'h' :: ' ' :: operand => some (.push (String.ofList operand))
  | 'p' :: 'o' :: 'p' :: ' ' :: target => some (.pop (String.ofList target))
  | _ => none

theorem Instruction.ofLine?_line (instruction : Instruction) :
    ofLine? instruction.line = some instruction := by
  cases instruction with
  | push operand => simp [ofLine?, line]
  | apply operator => cases operator <;> rfl
  | pop target => simp [ofLine?, line]

namespace Machine

def obey (machine : Machine) (line : String) : Option Machine :=
  (Instruction.ofLine? line).bind machine.step

def runLines (machine : Machine) : List String → Option Machine
  | [] => some machine
  | line :: rest => (machine.obey line).bind fun next => next.runLines rest

theorem runLines_map_line (machine : Machine) (instructions : List Instruction) :
    machine.runLines (instructions.map Instruction.line) = machine.run instructions := by
  induction instructions generalizing machine with
  | nil => rfl
  | cons instruction rest ih =>
      simp only [List.map_cons, runLines, run, obey, Instruction.ofLine?_line, Option.bind_some]
      cases machine.step instruction with
      | none => rfl
      | some next => exact ih next

/-! ## Values below -/

/-- An instruction that can be carried out does the same with more values below. -/
theorem step_append {machine next : Machine} {instruction : Instruction}
    (hstep : machine.step instruction = some next) (below : List Int) :
    Machine.step ⟨machine.stack ++ below, machine.store⟩ instruction =
      some ⟨next.stack ++ below, next.store⟩ := by
  obtain ⟨stack, store⟩ := machine
  cases instruction with
  | push operand =>
      obtain rfl := Option.some.inj hstep
      rfl
  | apply operator =>
      match stack with
      | [] => cases hstep
      | [_] => cases hstep
      | right :: left :: rest =>
          obtain rfl := Option.some.inj hstep
          rfl
  | pop target =>
      match stack with
      | [] => cases hstep
      | value :: rest =>
          obtain rfl := Option.some.inj hstep
          rfl

theorem run_stack_append {machine final : Machine} {instructions : List Instruction}
    (hrun : machine.run instructions = some final) (below : List Int) :
    Machine.run ⟨machine.stack ++ below, machine.store⟩ instructions =
      some ⟨final.stack ++ below, final.store⟩ := by
  induction instructions generalizing machine with
  | nil =>
      obtain rfl := Option.some.inj hrun
      rfl
  | cons instruction rest ih =>
      rw [run] at hrun ⊢
      cases hstep : machine.step instruction with
      | none =>
          rw [hstep] at hrun
          cases hrun
      | some next =>
          rw [hstep] at hrun
          rw [step_append hstep below]
          exact ih hrun

/-! ## The height of the stack -/

/-- Whether instructions can be carried out without more than some values on the stack at any
time. -/
def Bounded (height : Nat) (machine : Machine) : List Instruction → Prop
  | [] => machine.stack.length ≤ height
  | instruction :: rest =>
      machine.stack.length ≤ height ∧
        ∃ next, machine.step instruction = some next ∧ next.Bounded height rest

/-- The bound holds after every part of the instructions. -/
theorem Bounded.run_initial {height : Nat} {machine : Machine}
    {before instructions : List Instruction} (hbounded : machine.Bounded height instructions)
    (hbefore : before <+: instructions) :
    ∃ middle, machine.run before = some middle ∧ middle.stack.length ≤ height := by
  induction before generalizing machine instructions with
  | nil =>
      refine ⟨machine, rfl, ?_⟩
      cases instructions with
      | nil => exact hbounded
      | cons => exact hbounded.1
  | cons instruction before ih =>
      obtain ⟨after, rfl⟩ := hbefore
      obtain ⟨_, next, hstep, hnext⟩ := hbounded
      obtain ⟨middle, hmiddle, hheight⟩ := ih hnext (List.prefix_append before after)
      refine ⟨middle, ?_, hheight⟩
      rw [run, hstep]
      exact hmiddle

end Machine

namespace Statement

/-- After the first operand, links take one place more and give it back. -/
theorem bounded_links (links : List (Operator × String)) (target : String) (value : Int)
    (store : Store) :
    Machine.Bounded 2 ⟨[value], store⟩ (links.flatMap linkInstructions ++ [.pop target]) := by
  induction links generalizing value with
  | nil => exact ⟨by simp, _, rfl, by simp [Machine.Bounded]⟩
  | cons link links ih =>
      exact ⟨by simp, _, rfl, by simp, _, rfl, ih (linkValue store value link)⟩

theorem bounded_instructions (statement : Statement) (store : Store) :
    Machine.Bounded 2 ⟨[], store⟩ statement.instructions :=
  ⟨by simp, _, rfl, bounded_links statement.rest statement.target _ store⟩

end Statement

/-- **Accepted sources are compiled correctly.** The tokens of the source are those of a
statement, and the lines emitted for it store its value and leave the stack as it was. After
any part of the lines the stack holds at most two values more, the same ones as on a machine
that started without any: no value that was there before is ever taken. -/
theorem runLines_of_accepted {options : Options} {source : Source} {result : Result}
    (haccepted : (compile options source).outcome = .ok result) :
    ∃ statement : Statement,
      (∃ tokens after, (Scanner.ofSource source options.encoding).Draws tokens after ∧
        tokens.map Token.key = statement.tokens) ∧
      ∀ (stack : List Int) (store : Store),
        Machine.runLines ⟨stack, store⟩ result.instructions =
            some ⟨stack, store.assign statement.target (statement.value store)⟩ ∧
          ∀ before, before <+: result.instructions →
            ∃ above later, Machine.runLines ⟨[], store⟩ before = some ⟨above, later⟩ ∧
              Machine.runLines ⟨stack, store⟩ before = some ⟨above ++ stack, later⟩ ∧
              above.length ≤ 2 := by
  obtain ⟨statement, tokens, last, after, hdraws, hkeys, rfl⟩ :=
    outcome_compile_eq_ok_iff.mp haccepted
  obtain ⟨middle, htokens, _⟩ := Scanner.Draws.concat_iff.mp hdraws
  refine ⟨statement, ⟨tokens, middle, htokens, hkeys⟩, fun stack store => ⟨?_, ?_⟩⟩
  · rw [Statement.result, Machine.runLines_map_line]
    exact statement.run_instructions stack store
  · intro before hbefore
    -- a part of the lines is written for the same part of the instructions
    have hlines : before =
        (statement.instructions.take before.length).map Instruction.line := by
      rw [List.map_take]
      exact List.prefix_iff_eq_take.mp hbefore
    obtain ⟨⟨above, later⟩, hrun, hheight⟩ := (statement.bounded_instructions store).run_initial
      (List.take_prefix before.length statement.instructions)
    refine ⟨above, later, ?_, ?_, hheight⟩
    · rw [hlines, Machine.runLines_map_line]
      exact hrun
    · rw [hlines, Machine.runLines_map_line]
      exact Machine.run_stack_append hrun stack

/-- The source `let x=x-1+x;`, whose target is among its operands. -/
theorem runLines_of_accepted_own_operand :
    let source : Source := ⟨"own.let", [0x6C, 0x65, 0x74, 0x20, 0x78, 0x3D, 0x78, 0x2D, 0x31, 0x2B,
      0x78, 0x3B]⟩
    ∃ result, (compile .standard source).outcome = .ok result ∧
      result.instructions = ["push x", "push 1", "sub", "push x", "add", "pop x"] ∧
      ∃ statement : Statement,
        (∃ tokens after, (Scanner.ofSource source Encoding.defaultName).Draws tokens after ∧
          tokens.map Token.key = statement.tokens) ∧
        ∀ (stack : List Int) (store : Store),
          Machine.runLines ⟨stack, store⟩ result.instructions =
              some ⟨stack, store.assign statement.target (statement.value store)⟩ ∧
            ∀ before, before <+: result.instructions →
              ∃ above later, Machine.runLines ⟨[], store⟩ before = some ⟨above, later⟩ ∧
                Machine.runLines ⟨stack, store⟩ before = some ⟨above ++ stack, later⟩ ∧
                above.length ≤ 2 := by
  intro source
  have hlines : ((compile .standard source).outcome.map Result.instructions).toOption =
      some ["push x", "push 1", "sub", "push x", "add", "pop x"] := by
    decide +kernel
  cases haccepted : (compile .standard source).outcome with
  | error fault => simp [haccepted, Except.map, Except.toOption] at hlines
  | ok result =>
      refine ⟨result, rfl, ?_, runLines_of_accepted haccepted⟩
      simpa [haccepted, Except.map, Except.toOption] using hlines

end LetLang
