import LetLang.Compilation
import LetLang.Proofs.Sentences

/-!
# What a compilation accepts

A source is accepted exactly if the tokens of a statement can be drawn from its start and one
more token after them. The result is then known from the statement and these tokens.
-/

namespace LetLang

open Statement

/-- The result of compiling a statement that is made of some tokens. -/
def Statement.result (statement : Statement) (source : Source) (options : Options)
    (tokens : List Token) : Result :=
  ⟨source.file, statement.instructions.map Instruction.line,
    if options.trace then tokens else []⟩

theorem outcome_compile_of_ok {options : Options} {source : Source} {scanner : Scanner}
    {first : Token}
    (hfirst : (Scanner.ofSource source options.encoding).next = (scanner, .ok first)) :
    (compile options source).outcome =
      match (Statement.read scanner first).fault with
      | some fault => .error fault
      | none => .ok ⟨source.file, (Statement.read scanner first).lines,
          if options.trace then first :: (Statement.read scanner first).tokens else []⟩ := by
  rw [compile, hfirst]
  rfl

/-- Accepting is drawing the tokens of a statement and one more. -/
theorem outcome_compile_eq_ok_iff {options : Options} {source : Source} {result : Result} :
    (compile options source).outcome = .ok result ↔
      ∃ (statement : Statement) (tokens : List Token) (last : Token) (after : Scanner),
        (Scanner.ofSource source options.encoding).Draws (tokens ++ [last]) after ∧
          tokens.map Token.key = statement.tokens ∧
          result = statement.result source options (tokens ++ [last]) := by
  constructor
  · intro hresult
    rcases hfirst : (Scanner.ofSource source options.encoding).next with ⟨scanner, fault | first⟩
    · rw [compile, hfirst] at hresult
      cases hresult
    · rw [outcome_compile_of_ok hfirst] at hresult
      have houtcome := readFrom_outcome .start scanner first
      cases houtcome with
      | completed tokens last target hrun hdraws htokens hcurrent hfault =>
          -- the tokens drawn spell a statement, as every token has the text of its kind
          have hall := Scanner.Draws.cons hfirst hdraws
          obtain ⟨statement, hkeys, hinstructions, _⟩ := Stage.exists_statement
            (fun token htoken => hall.faithful token (List.mem_append_left [last] htoken)) hrun
          refine ⟨statement, first :: tokens, last, _, hall, hkeys, ?_⟩
          rw [Statement.read, hfault] at hresult
          obtain rfl := Except.ok.inj hresult
          rw [Statement.result, Reading.lines, hinstructions, htokens]
          rfl
      | refused _ _ _ _ _ _ _ _ _ _ hfault =>
          rw [Statement.read, hfault] at hresult
          cases hresult
      | failed _ _ _ _ _ _ _ hfault =>
          rw [Statement.read, hfault] at hresult
          cases hresult
  · rintro ⟨statement, tokens, last, after, hdraws, hkeys, rfl⟩
    have hrun := Stage.run_tokens hkeys
    cases tokens with
    | nil => cases hkeys
    | cons first tokens =>
        cases hdraws with
        | cons hfirst hdraws =>
            obtain ⟨hfault, hinstructions, htokens⟩ := readFrom_of_run hrun hdraws
            rw [outcome_compile_of_ok hfirst, Statement.read, hfault, Reading.lines, hinstructions,
              htokens]
            rfl

/-- A statement whose tokens can be drawn, and one more, is read to its end. -/
theorem Statement.read_of_draws {statement : Statement} {scanner after : Scanner}
    {first last : Token} {tokens : List Token}
    (hkeys : (first :: tokens).map Token.key = statement.tokens)
    (hdraws : scanner.Draws (tokens ++ [last]) after) :
    (read scanner first).fault = none ∧
      (read scanner first).lines = statement.instructions.map Instruction.line ∧
      (read scanner first).scanner = after ∧ (read scanner first).current = last := by
  have hrun := Stage.run_tokens hkeys
  obtain ⟨hfault, hinstructions, _⟩ := readFrom_of_run hrun hdraws
  obtain ⟨hscanner, hcurrent⟩ := readFrom_place_of_run hrun hdraws
  refine ⟨hfault, ?_, hscanner, hcurrent⟩
  rw [Reading.lines, read, hinstructions]

end LetLang
