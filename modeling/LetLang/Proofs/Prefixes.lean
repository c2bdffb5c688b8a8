import LetLang.Proofs.Sentences

/-!
# Prefixes of sentences

Sentences are told by the kinds of their tokens alone: the keyword `let`, a name, an equals sign,
operands joined by plus and minus signs, and a semicolon. What may follow a stage is what makes a
sentence of the kinds that lead to it. So tokens are of use as long as they are a prefix of a
sentence, and the first one that makes them no prefix is of no use.
-/

namespace LetLang

def Kind.IsOperand (kind : Kind) : Prop :=
  kind = .number ∨ kind = .identifier

def Kind.IsOperator (kind : Kind) : Prop :=
  kind = .mark .plus ∨ kind = .mark .minus

instance : DecidablePred Kind.IsOperand :=
  fun kind => inferInstanceAs (Decidable (kind = _ ∨ kind = _))

theorem Kind.isOperator_iff {kind : Kind} :
    kind.IsOperator ↔ ∃ operator, kind = .mark (Statement.markOf operator) := by
  constructor
  · rintro (hplus | hminus)
    · exact ⟨.add, hplus⟩
    · exact ⟨.sub, hminus⟩
  · rintro ⟨operator, hkind⟩
    cases operator with
    | add => exact Or.inl hkind
    | sub => exact Or.inr hkind

namespace Grammar

/-- What follows an operand: operators with their right operands, and a semicolon. -/
inductive Links : List Kind → Prop where
  | done : Links [.mark .semicolon]
  | link {operator operand : Kind} {rest : List Kind} (hoperator : operator.IsOperator)
      (hoperand : operand.IsOperand) (hrest : Links rest) : Links (operator :: operand :: rest)

/-- The kinds of the tokens of a statement. -/
inductive Sentence : List Kind → Prop where
  | statement {operand : Kind} {rest : List Kind} (hoperand : operand.IsOperand)
      (hrest : Links rest) :
      Sentence (.keyword .let :: .identifier :: .mark .equals :: operand :: rest)

/-- Whether kinds are a prefix of a sentence, which may be all of it. -/
def Viable (kinds : List Kind) : Prop :=
  ∃ sentence, Sentence sentence ∧ kinds <+: sentence

/-- Whether kinds are a prefix of a sentence, and not all of it. -/
def Unfinished (kinds : List Kind) : Prop :=
  ∃ sentence, Sentence sentence ∧ kinds <+: sentence ∧ kinds ≠ sentence

/-- Whether the kinds before an index are an unfinished sentence that the one at the index does
not go on with. -/
def BreaksAt (kinds : List Kind) (index : Nat) : Prop :=
  index < kinds.length ∧ Unfinished (kinds.take index) ∧ ¬ Viable (kinds.take (index + 1))

/-- What has to follow the kinds of an unfinished sentence, as messages call it. -/
def due (before : List Kind) : String :=
  match before.length with
  | 0 => "'let'"
  | 1 => "identifier"
  | 2 => "'='"
  | _ => if ∃ kind ∈ before.getLast?, kind.IsOperand then "';'" else "number or identifier"

end Grammar

namespace Statement.Stage

open Grammar

/-- What may follow a stage to complete a sentence. -/
def Accepts : Stage → List Kind → Prop
  | .start, kinds => Sentence kinds
  | .target, kinds => Sentence (.keyword .let :: kinds)
  | .equals _, kinds => Sentence (.keyword .let :: .identifier :: kinds)
  | .operand _ _, kinds => ∃ operand rest, kinds = operand :: rest ∧ operand.IsOperand ∧ Links rest
  | .chain _ _, kinds => Links kinds
  | .complete _, kinds => kinds = []

theorem exists_step_of_accepts {stage : Stage} {token : Token} {rest : List Kind}
    (haccepts : stage.Accepts (token.kind :: rest)) :
    ∃ emitted next, stage.step token = (emitted, .ok next) ∧ next.Accepts rest := by
  generalize hkind : token.kind = kind at haccepts
  cases stage with
  | start =>
      cases haccepts with
      | statement hoperand hrest =>
          exact ⟨[], .target, if_pos hkind, .statement hoperand hrest⟩
  | target =>
      cases haccepts with
      | statement hoperand hrest =>
          exact ⟨[], .equals token.text, if_pos hkind, .statement hoperand hrest⟩
  | equals name =>
      cases haccepts with
      | statement hoperand hrest =>
          exact ⟨[], .operand name none, if_pos hkind, _, _, rfl, hoperand, hrest⟩
  | operand name pending =>
      obtain ⟨operand, links, heq, hoperand, hlinks⟩ := haccepts
      obtain ⟨rfl, rfl⟩ := List.cons.inj heq
      subst hkind
      exact ⟨[.push token.text], .chain name pending, if_pos hoperand, hlinks⟩
  | chain name pending =>
      cases haccepts with
      | done => exact ⟨_, .complete name, step_semicolon hkind name pending, rfl⟩
      | link hoperator hoperand hrest =>
          obtain ⟨operator, rfl⟩ := Kind.isOperator_iff.mp hoperator
          exact ⟨_, .operand name (some operator), step_operator hkind name pending, _, _, rfl,
            hoperand, hrest⟩
  | complete name => cases haccepts

theorem Accepts.cons {stage next : Stage} {token : Token} {emitted : List Instruction}
    {rest : List Kind} (hstep : stage.step token = (emitted, .ok next))
    (haccepts : next.Accepts rest) : stage.Accepts (token.kind :: rest) := by
  cases stage with
  | start =>
      obtain ⟨hkind, rfl, rfl⟩ := of_step_start hstep
      rwa [hkind]
  | target =>
      obtain ⟨hkind, rfl, rfl⟩ := of_step_target hstep
      rwa [hkind]
  | equals name =>
      obtain ⟨hkind, rfl, rfl⟩ := of_step_equals hstep
      obtain ⟨operand, links, rfl, hoperand, hlinks⟩ := haccepts
      rw [hkind]
      exact .statement hoperand hlinks
  | operand name pending =>
      obtain ⟨hkind, rfl, rfl⟩ := of_step_operand hstep
      exact ⟨token.kind, rest, rfl, hkind, haccepts⟩
  | chain name pending =>
      rcases step_chain_cases hstep with ⟨operator, hkind, rfl, rfl⟩ | ⟨hkind, rfl, rfl⟩
      · obtain ⟨operand, links, rfl, hoperand, hlinks⟩ := haccepts
        exact .link (Kind.isOperator_iff.mpr ⟨operator, hkind⟩) hoperand hlinks
      · obtain rfl := haccepts
        rw [hkind]
        exact .done
  | complete name => cases (Prod.mk.inj hstep).2

/-- A stage accepts what tokens of use and the stage after them make up. -/
theorem accepts_append_iff {tokens : List Token} {rest : List Kind} {stage : Stage} :
    stage.Accepts (tokens.map Token.kind ++ rest) ↔
      ∃ emitted reached, stage.run tokens = (emitted, .ok reached) ∧ reached.Accepts rest := by
  induction tokens generalizing stage with
  | nil =>
      constructor
      · intro haccepts
        exact ⟨[], stage, rfl, haccepts⟩
      · rintro ⟨emitted, reached, hrun, haccepts⟩
        obtain ⟨_, rfl⟩ := mk_ok_inj hrun
        exact haccepts
  | cons token tokens ih =>
      constructor
      · intro haccepts
        obtain ⟨first, next, hstep, hnext⟩ := exists_step_of_accepts haccepts
        obtain ⟨later, reached, hlater, hreached⟩ := ih.mp hnext
        exact ⟨first ++ later, reached,
          run_cons_eq_ok_iff.mpr ⟨first, next, later, hstep, hlater, rfl⟩, hreached⟩
      · rintro ⟨emitted, reached, hrun, haccepts⟩
        obtain ⟨first, next, later, hstep, hlater, _⟩ := run_cons_eq_ok_iff.mp hrun
        exact .cons hstep (ih.mpr ⟨later, reached, hlater, haccepts⟩)

/-- Every stage can be completed, and only a complete one by nothing. -/
theorem exists_accepts (stage : Stage) : ∃ rest, stage.Accepts rest ∧
    (rest = [] ↔ ∃ target, stage = .complete target) := by
  have hlinks : Links [.mark .semicolon] := .done
  have hnumber : Kind.number.IsOperand := Or.inl rfl
  cases stage with
  | start => exact ⟨_, .statement hnumber hlinks, by simp⟩
  | target => exact ⟨_, .statement hnumber hlinks, by simp⟩
  | equals name => exact ⟨_, .statement hnumber hlinks, by simp⟩
  | operand name pending => exact ⟨_, ⟨_, _, rfl, hnumber, hlinks⟩, by simp⟩
  | chain name pending => exact ⟨_, hlinks, by simp⟩
  | complete name => exact ⟨[], rfl, by simp⟩

/-! ## What is due -/

/-- Which kinds may have led to a stage. -/
def Follows : Stage → List Kind → Prop
  | .start, before => before = []
  | .target, before => before.length = 1
  | .equals _, before => before.length = 2
  | .operand _ _, before => 3 ≤ before.length ∧ ¬ ∃ kind ∈ before.getLast?, kind.IsOperand
  | .chain _ _, before => 3 ≤ before.length ∧ ∃ kind ∈ before.getLast?, kind.IsOperand
  | .complete _, _ => True

theorem Follows.concat {stage next : Stage} {token : Token} {emitted : List Instruction}
    {before : List Kind} (hfollows : stage.Follows before)
    (hstep : stage.step token = (emitted, .ok next)) :
    next.Follows (before ++ [token.kind]) := by
  cases stage with
  | start =>
      obtain ⟨_, _, rfl⟩ := of_step_start hstep
      obtain rfl := hfollows
      rfl
  | target =>
      obtain ⟨_, _, rfl⟩ := of_step_target hstep
      simp only [Follows] at hfollows
      simp [Follows, hfollows]
  | equals name =>
      obtain ⟨hkind, _, rfl⟩ := of_step_equals hstep
      simp only [Follows] at hfollows
      simp [Follows, hfollows, hkind, Kind.IsOperand]
  | operand name pending =>
      obtain ⟨hkind, _, rfl⟩ := of_step_operand hstep
      refine ⟨?_, token.kind, by simp, hkind⟩
      have := hfollows.1
      rw [List.length_append]
      omega
  | chain name pending =>
      rcases step_chain_cases hstep with ⟨operator, hkind, _, rfl⟩ | ⟨_, _, rfl⟩
      · refine ⟨?_, by simp [hkind, Kind.IsOperand]⟩
        have := hfollows.1
        rw [List.length_append]
        omega
      · trivial
  | complete name => cases (Prod.mk.inj hstep).2

theorem follows_of_run {tokens : List Token} {reached : Stage} {emitted : List Instruction}
    (hrun : Stage.start.run tokens = (emitted, .ok reached)) :
    reached.Follows (tokens.map Token.kind) := by
  refine run_start_induction (fun stage seen _ => stage.Follows (seen.map Token.kind)) rfl ?_ hrun
  intro stage next token seen emitted last hfollows hstep
  rw [List.map_append]
  exact hfollows.concat hstep

theorem of_ite_eq_error {due : Prop} [Decidable due] {first second emitted : List Instruction}
    {reached : Stage} {other needed : Expectation}
    (hstep : (if due then (first, .ok reached) else (second, .error other)) =
      (emitted, (.error needed : Except Expectation Stage))) :
    ¬ due ∧ emitted = second ∧ needed = other := by
  split at hstep
  next => cases (Prod.mk.inj hstep).2
  next hdue =>
    obtain ⟨hemitted, hneeded⟩ := Prod.mk.inj hstep
    exact ⟨hdue, hemitted.symm, (Except.error.inj hneeded).symm⟩

/-- All that a token of no use can have met: what was due, and what the stage has emitted
nevertheless. -/
theorem step_error_cases {stage : Stage} {token : Token} {emitted : List Instruction}
    {needed : Expectation} (hstep : stage.step token = (emitted, .error needed)) :
    (stage = .start ∧ token.kind ≠ .keyword .let ∧ emitted = [] ∧ needed = .letWord) ∨
      (stage = .target ∧ token.kind ≠ .identifier ∧ emitted = [] ∧ needed = .identifier) ∨
      (∃ name, stage = .equals name ∧ token.kind ≠ .mark .equals ∧ emitted = [] ∧
        needed = .equals) ∨
      (∃ name pending, stage = .operand name pending ∧ ¬ token.kind.IsOperand ∧ emitted = [] ∧
        needed = .operand) ∨
      (∃ name pending, stage = .chain name pending ∧ ¬ token.kind.IsOperator ∧
        token.kind ≠ .mark .semicolon ∧ emitted = applied pending ++ [.pop name] ∧
        needed = .semicolon) ∨
      ∃ target, stage = .complete target := by
  cases stage with
  | start => exact Or.inl ⟨rfl, of_ite_eq_error hstep⟩
  | target => exact Or.inr (Or.inl ⟨rfl, of_ite_eq_error hstep⟩)
  | equals name => exact Or.inr (Or.inr (Or.inl ⟨name, rfl, of_ite_eq_error hstep⟩))
  | operand name pending =>
      exact Or.inr (Or.inr (Or.inr (Or.inl ⟨name, pending, rfl, of_ite_eq_error hstep⟩)))
  | chain name pending =>
      refine Or.inr (Or.inr (Or.inr (Or.inr (Or.inl ⟨name, pending, rfl, ?_⟩))))
      have hoperator : ¬ token.kind.IsOperator := by
        intro hoperator
        obtain ⟨operator, hkind⟩ := Kind.isOperator_iff.mp hoperator
        rw [step_operator hkind name pending] at hstep
        cases (Prod.mk.inj hstep).2
      obtain ⟨hplus, hminus⟩ := not_or.mp hoperator
      rw [step, if_neg hplus, if_neg hminus] at hstep
      exact ⟨hoperator, of_ite_eq_error hstep⟩
  | complete target => exact Or.inr (Or.inr (Or.inr (Or.inr (Or.inr ⟨target, rfl⟩))))

/-- A token of no use is refused for what is due after the kinds before it. -/
theorem text_of_step_error {stage : Stage} {token : Token} {emitted : List Instruction}
    {needed : Expectation} {before : List Kind} (hfollows : stage.Follows before)
    (hopen : ∀ target, stage ≠ .complete target)
    (hstep : stage.step token = (emitted, .error needed)) : needed.text = due before := by
  rcases step_error_cases hstep with ⟨rfl, _, _, rfl⟩ | ⟨rfl, _, _, rfl⟩ | ⟨name, rfl, _, _, rfl⟩ |
    ⟨name, pending, rfl, _, _, rfl⟩ | ⟨name, pending, rfl, _, _, _, rfl⟩ | ⟨target, rfl⟩
  · obtain rfl := hfollows
    rfl
  · have hlength : before.length = 1 := hfollows
    rw [due, hlength]
    rfl
  · have hlength : before.length = 2 := hfollows
    rw [due, hlength]
    rfl
  · obtain ⟨hlength, hlast⟩ := hfollows
    obtain ⟨more, hmore⟩ := Nat.exists_eq_add_of_le' hlength
    rw [due, hmore]
    exact (if_neg hlast).symm
  · obtain ⟨hlength, hlast⟩ := hfollows
    obtain ⟨more, hmore⟩ := Nat.exists_eq_add_of_le' hlength
    rw [due, hmore]
    exact (if_pos hlast).symm
  · exact absurd rfl (hopen target)

end Statement.Stage

namespace Grammar

open Statement

/-- Tokens are of use exactly if their kinds are a prefix of a sentence. -/
theorem viable_iff {tokens : List Token} :
    Viable (tokens.map Token.kind) ↔
      ∃ emitted reached, Stage.start.run tokens = (emitted, .ok reached) := by
  constructor
  · rintro ⟨sentence, hsentence, rest, rfl⟩
    have haccepts : Stage.start.Accepts (tokens.map Token.kind ++ rest) := hsentence
    obtain ⟨emitted, reached, hrun, _⟩ := Stage.accepts_append_iff.mp haccepts
    exact ⟨emitted, reached, hrun⟩
  · rintro ⟨emitted, reached, hrun⟩
    obtain ⟨rest, hrest, _⟩ := reached.exists_accepts
    exact ⟨_, Stage.accepts_append_iff.mpr ⟨emitted, reached, hrun, hrest⟩,
      List.prefix_append _ rest⟩

/-- Tokens leave more to come exactly if they lead to a stage that is not complete. -/
theorem unfinished_iff {tokens : List Token} :
    Unfinished (tokens.map Token.kind) ↔
      ∃ emitted reached, Stage.start.run tokens = (emitted, .ok reached) ∧
        ∀ target, reached ≠ .complete target := by
  constructor
  · rintro ⟨sentence, hsentence, ⟨rest, rfl⟩, hproper⟩
    have haccepts : Stage.start.Accepts (tokens.map Token.kind ++ rest) := hsentence
    obtain ⟨emitted, reached, hrun, hrest⟩ := Stage.accepts_append_iff.mp haccepts
    refine ⟨emitted, reached, hrun, ?_⟩
    rintro target rfl
    obtain rfl : rest = [] := hrest
    exact hproper (List.append_nil _).symm
  · rintro ⟨emitted, reached, hrun, hreached⟩
    obtain ⟨rest, hrest, hnil⟩ := reached.exists_accepts
    refine ⟨_, Stage.accepts_append_iff.mpr ⟨emitted, reached, hrun, hrest⟩,
      List.prefix_append _ rest, fun heq => ?_⟩
    obtain ⟨target, hcomplete⟩ := hnil.mp (List.self_eq_append_right.mp heq)
    exact hreached target hcomplete

/-! ## Where kinds break -/

theorem Viable.of_front {kinds more : List Kind} (hviable : Viable more)
    (hfront : kinds <+: more) : Viable kinds := by
  obtain ⟨sentence, hsentence, hmore⟩ := hviable
  exact ⟨sentence, hsentence, hfront.trans hmore⟩

theorem Unfinished.viable {kinds : List Kind} (hunfinished : Unfinished kinds) : Viable kinds := by
  obtain ⟨sentence, hsentence, hfront, _⟩ := hunfinished
  exact ⟨sentence, hsentence, hfront⟩

namespace BreaksAt

variable {kinds : List Kind} {first second : Nat}

theorem not_viable (hbreaks : BreaksAt kinds first) : ¬ Viable kinds := fun hviable =>
  hbreaks.2.2 (hviable.of_front (List.take_prefix _ kinds))

theorem le (hfirst : BreaksAt kinds first) (hsecond : BreaksAt kinds second) :
    second ≤ first := by
  by_contra hless
  have hfront : kinds.take (first + 1) <+: kinds.take second :=
    List.take_prefix_take_left (by omega)
  exact hfirst.2.2 (hsecond.2.1.viable.of_front hfront)

theorem unique (hfirst : BreaksAt kinds first) (hsecond : BreaksAt kinds second) :
    first = second :=
  Nat.le_antisymm (hsecond.le hfirst) (hfirst.le hsecond)

end BreaksAt

/-- Kinds break at the first token of no use. -/
theorem breaksAt_length {before : List Token} {token : Token} {reached : Stage}
    {emitted last : List Instruction} {needed : Expectation}
    (hrun : Stage.start.run before = (emitted, .ok reached))
    (hopen : ∀ target, reached ≠ .complete target)
    (hstep : reached.step token = (last, .error needed)) (later : List Token) :
    BreaksAt ((before ++ token :: later).map Token.kind) before.length := by
  refine ⟨by simp, ?_, ?_⟩
  · rw [← List.map_take, List.take_left]
    exact unfinished_iff.mpr ⟨emitted, reached, hrun, hopen⟩
  · rw [← List.map_take, List.take_length_add_append, List.take_succ_cons, List.take_zero,
      viable_iff]
    rintro ⟨_, _, hviable⟩
    obtain ⟨_, middle, _, hbefore, htoken, _⟩ := Stage.run_append_eq_ok_iff.mp hviable
    rw [hrun] at hbefore
    obtain ⟨_, rfl⟩ := mk_ok_inj hbefore
    rw [Stage.run_singleton, hstep] at htoken
    cases (Prod.mk.inj htoken).2

/-- Kinds that start with a whole sentence break nowhere. -/
theorem not_breaksAt_of_complete {tokens : List Token} {target : String}
    {emitted : List Instruction} (hrun : Stage.start.run tokens = (emitted, .ok (.complete target)))
    (later : List Token) (index : Nat) :
    ¬ BreaksAt ((tokens ++ later).map Token.kind) index := by
  rintro ⟨_, hunfinished, hbreaks⟩
  rw [← List.map_take, List.take_append] at hunfinished hbreaks
  by_cases hindex : index < tokens.length
  · -- all kinds up to the index are of the sentence
    have hviable : Viable (tokens.map Token.kind) := viable_iff.mpr ⟨_, _, hrun⟩
    have hnone : index + 1 - tokens.length = 0 := by omega
    rw [hnone, List.take_zero, List.append_nil, List.map_take] at hbreaks
    exact hbreaks (hviable.of_front (List.take_prefix _ _))
  · -- nothing unfinished starts with the whole sentence
    rw [List.take_of_length_le (by omega), unfinished_iff] at hunfinished
    obtain ⟨_, reached, hreached, hopen⟩ := hunfinished
    obtain ⟨_, _, _, hcomplete, hrest, _⟩ := Stage.run_append_eq_ok_iff.mp hreached
    rw [hrun] at hcomplete
    obtain ⟨_, rfl⟩ := mk_ok_inj hcomplete
    cases hmore : later.take (index - tokens.length) with
    | nil =>
        rw [hmore] at hrest
        exact hopen target (mk_ok_inj hrest).2.symm
    | cons token more =>
        rw [hmore] at hrest
        exact Stage.run_complete_cons_ne_ok hrest

end Grammar

end LetLang
