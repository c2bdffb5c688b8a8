import LetLang.Proofs.Remains

/-!
# Traced compilations

Listing the tokens of a compilation changes nothing else about it. The list of one that succeeds is
what a fresh scanner hands out first: the statement up to its semicolon, and the token after that.
No more is read, so what stands behind these tokens has no influence.
-/

namespace LetLang

namespace Statement

theorem kind_ne_semicolon {operand : String} : kindOf operand ≠ .mark .semicolon := by
  rcases kindOf_eq operand with hkind | hkind <;> simp [hkind]

/-- A statement has no semicolon but its last token. -/
theorem kind_of_mem_openTokens {statement : Statement} {key : Kind × String}
    (hkey : key ∈ statement.openTokens) : key.1 ≠ .mark .semicolon := by
  rcases List.mem_append.mp hkey with hhead | hlinks
  · simp only [List.mem_cons, List.not_mem_nil, or_false] at hhead
    rcases hhead with rfl | rfl | rfl | rfl
    · simp
    · simp
    · simp
    · exact kind_ne_semicolon
  · obtain ⟨link, _, hlink⟩ := List.mem_flatMap.mp hlinks
    simp only [linkTokens, List.mem_cons, List.not_mem_nil, or_false] at hlink
    rcases hlink with rfl | rfl
    · cases link.1 <;> simp [markOf]
    · exact kind_ne_semicolon

/-- Tokens of a statement are tokens without a semicolon and then one. -/
theorem exists_semicolon {statement : Statement} {tokens : List Token}
    (hkeys : tokens.map Token.key = statement.tokens) :
    ∃ before semicolon, tokens = before ++ [semicolon] ∧ semicolon.kind = .mark .semicolon ∧
      ∀ token ∈ before, token.kind ≠ .mark .semicolon := by
  rw [tokens_eq_openTokens, List.map_eq_append_iff] at hkeys
  obtain ⟨before, final, rfl, hbefore, hfinal⟩ := hkeys
  obtain ⟨semicolon, rfl, hsemicolon⟩ := List.map_eq_singleton_iff.mp hfinal
  refine ⟨before, semicolon, rfl, (Prod.mk.inj hsemicolon).1, fun token htoken => ?_⟩
  have hkey := List.mem_map_of_mem (f := Token.key) htoken
  rw [hbefore] at hkey
  exact kind_of_mem_openTokens hkey

end Statement

/-- An empty sink ends up with the lines that are emitted. -/
theorem parsedLines_eq (source : Source) : parsedLines source = instructionsOf source := by
  rw [instructionsOf]
  rcases hfirst : (Scanner.ofSource source Encoding.defaultName).next with ⟨scanner, fault | first⟩
  · have hstandard : (Scanner.ofSource source Options.standard.encoding).next =
        (scanner, .error fault) := hfirst
    rw [parsedLines, hfirst, compile, hstandard]
    rfl
  · have hstandard : (Scanner.ofSource source Options.standard.encoding).next =
        (scanner, .ok first) := hfirst
    rw [parsedLines, hfirst, outcome_compile_of_ok hstandard]
    simp only [Sink.emitAll_eq]
    cases (Statement.read scanner first).fault <;> rfl

/-- Without tracing the result is the same but for the tokens, which are left out. -/
theorem outcome_compile_untraced (source : Source) (encoding : Decoder) :
    (compile ⟨encoding, false⟩ source).outcome =
      (compile ⟨encoding, true⟩ source).outcome.map fun result => { result with tokens := [] } := by
  rcases hfirst : (Scanner.ofSource source encoding).next with ⟨scanner, fault | first⟩
  · simp only [compile, hfirst]
    rfl
  · simp only [compile, hfirst]
    cases ((Statement.read scanner first).after [.drawn first]).fault <;> rfl

/-- A compilation that finds a statement draws its tokens and one more, and no other. -/
theorem tokens_compile_of_draws {options : Options} {source : Source} {statement : Statement}
    {tokens : List Token} {last : Token} {after : Scanner}
    (hdraws : (Scanner.ofSource source options.encoding).Draws (tokens ++ [last]) after)
    (hkeys : tokens.map Token.key = statement.tokens) :
    (compile options source).tokens = tokens ++ [last] ∧
      ∃ scanner first, (Scanner.ofSource source options.encoding).next = (scanner, .ok first) ∧
        (Statement.read scanner first).scanner = after := by
  cases tokens with
  | nil => cases hkeys
  | cons first tokens =>
      cases hdraws with
      | cons hfirst hlater =>
          obtain ⟨_, _, hafter, _⟩ := Statement.read_of_draws hkeys hlater
          obtain ⟨_, _, htokens⟩ :=
            Statement.readFrom_of_run (Statement.Stage.run_tokens hkeys) hlater
          refine ⟨?_, _, first, hfirst, hafter⟩
          rw [tokens_compile_of_ok hfirst, Statement.read, htokens, List.cons_append]

/-- **Tracing shows what is read and changes nothing.** With and without tracing a compilation fails
in the same way or gives the same file and lines, and under the standard encoding all ways to
compile a source do. The tokens listed are those that a fresh scanner draws first: a statement, up
to the only semicolon, and one token more, at which the scanner is left. Whatever else a source has
these first tokens is compiled to the same lines and tokens. -/
theorem compile_traced (source : Source) (encoding : Decoder) :
    (compile ⟨encoding, false⟩ source).outcome =
      (compile ⟨encoding, true⟩ source).outcome.map (fun result => { result with tokens := [] }) ∧
    (∀ trace, (compile ⟨Encoding.defaultName, trace⟩ source).outcome.map Result.instructions =
      instructionsOf source) ∧
    parsedLines source = instructionsOf source ∧
    ∀ result, (compile ⟨encoding, true⟩ source).outcome = .ok result →
      ∃ (statement : Statement) (before : List Token) (semicolon last : Token) (after : Scanner),
        result.tokens = before ++ [semicolon, last] ∧
        (Scanner.ofSource source encoding).Draws result.tokens after ∧
        semicolon.kind = .mark .semicolon ∧
        (∀ token ∈ before, token.kind ≠ .mark .semicolon) ∧
        (before ++ [semicolon]).map Token.key = statement.tokens ∧
        result.instructions = statement.lines ∧
        (compile ⟨encoding, true⟩ source).tokens = result.tokens ∧
        (∃ scanner first, (Scanner.ofSource source encoding).next = (scanner, .ok first) ∧
          (Statement.read scanner first).scanner = after) ∧
        ∀ other later, (Scanner.ofSource other encoding).Draws result.tokens later →
          (compile ⟨encoding, true⟩ other).outcome =
            .ok ⟨other.file, result.instructions, result.tokens⟩ := by
  refine ⟨outcome_compile_untraced source encoding, ?_, parsedLines_eq source, ?_⟩
  · intro trace
    cases trace with
    | false => rfl
    | true =>
        rw [instructionsOf, Options.standard, outcome_compile_untraced]
        cases (compile ⟨Encoding.defaultName, true⟩ source).outcome <;> rfl
  · intro result houtcome
    obtain ⟨statement, tokens, last, after, hdraws, hkeys, rfl⟩ :=
      outcome_compile_eq_ok_iff.mp houtcome
    obtain ⟨before, semicolon, rfl, hsemicolon, hbefore⟩ := Statement.exists_semicolon hkeys
    obtain ⟨htokens, hfirst⟩ := tokens_compile_of_draws hdraws hkeys
    refine ⟨statement, before, semicolon, last, after, List.append_assoc .., hdraws, hsemicolon,
      hbefore, hkeys, statement.map_line_instructions, htokens, hfirst, ?_⟩
    intro other later hlater
    exact outcome_compile_eq_ok_iff.mpr ⟨statement, _, last, later, hlater, hkeys, rfl⟩

/-- A comment that never closes stands after the token that is read ahead, where only a full scan
meets it. -/
theorem compile_traced_late_comment :
    let source : Source := ⟨"late", [0x6C, 0x65, 0x74, 0x20, 0x61, 0x3D, 0x31, 0x3B, 0x62, 0x2F,
      0x2A]⟩
    (Scanner.ofSource source "utf-8").scan.fault = some (.diagnostic
      ⟨.unclosedComment, some ⟨"late", 1, 10⟩, some "let a=1;b/*"⟩) ∧
    ∃ (result : Result) (before : List Token) (semicolon last : Token) (after : Scanner),
      (compile ⟨"utf-8", true⟩ source).outcome = .ok result ∧
      result.instructions = ["push 1", "pop a"] ∧
      result.tokens = before ++ [semicolon, last] ∧ semicolon.kind = .mark .semicolon ∧
      (Scanner.ofSource source "utf-8").Draws result.tokens after ∧
      (compile ⟨"utf-8", true⟩ source).tokens = result.tokens := by
  intro source
  have hlines : ((compile ⟨"utf-8", true⟩ source).outcome.map Result.instructions).toOption =
      some ["push 1", "pop a"] := by
    decide +kernel
  obtain ⟨result, houtcome, hinstructions⟩ := exists_result_of_instructions hlines
  obtain ⟨_, _, _, htraced⟩ := compile_traced source "utf-8"
  obtain ⟨_, before, semicolon, last, after, htokens, hdraws, hsemicolon, _, _, _, hall, _⟩ :=
    htraced result houtcome
  exact ⟨by decide +kernel, result, before, semicolon, last, after, houtcome, hinstructions,
    htokens, hsemicolon, hdraws, hall⟩

end LetLang
