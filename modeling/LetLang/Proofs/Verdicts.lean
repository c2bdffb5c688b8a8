import LetLang.Compilation
import LetLang.Proofs.Acceptance

/-!
# How a compilation ends

A compilation draws tokens from the start of its source and gives each to the stage that the
statement is in. It accepts the tokens of a statement and one more, or refuses the first token
that is of no use, or fails with the draw of the next one. These are all the ways there are.
-/

namespace LetLang

open Statement

/-- The tokens drawn by a compilation. -/
def Compilation.tokens (compilation : Compilation) : List Token :=
  compilation.events.filterMap Event.token?

/-- The ways in which the compilation of a source ends. -/
inductive Verdict (options : Options) (source : Source) : Prop where
  /-- The tokens are a statement, and the one after them has been drawn. -/
  | accepted (tokens : List Token) (last : Token) (after : Scanner) (target : String)
      (emitted : List Instruction) (result : Result)
      (hdraws : (Scanner.ofSource source options.encoding).Draws (tokens ++ [last]) after)
      (hrun : Stage.start.run tokens = (emitted, .ok (.complete target)))
      (htokens : (compile options source).tokens = tokens ++ [last])
      (houtcome : (compile options source).outcome = .ok result)
  /-- The last token drawn is of no use in a stage that is not complete. -/
  | refused (before : List Token) (token : Token) (after : Scanner) (reached : Stage)
      (needed : Expectation) (emitted last : List Instruction)
      (hdraws : (Scanner.ofSource source options.encoding).Draws (before ++ [token]) after)
      (hrun : Stage.start.run before = (emitted, .ok reached))
      (hreached : ∀ target, reached ≠ .complete target)
      (hstep : reached.step token = (last, .error needed))
      (htokens : (compile options source).tokens = before ++ [token])
      (houtcome : (compile options source).outcome =
        .error (.diagnostic (unexpected source token needed)))
  /-- All tokens drawn were of use and the draw of another one failed. -/
  | failed (tokens : List Token) (middle after : Scanner) (fault : Fault) (reached : Stage)
      (emitted : List Instruction)
      (hdraws : (Scanner.ofSource source options.encoding).Draws tokens middle)
      (hrun : Stage.start.run tokens = (emitted, .ok reached))
      (hdraw : middle.next = (after, .error fault))
      (htokens : (compile options source).tokens = tokens)
      (houtcome : (compile options source).outcome = .error fault)

theorem tokens_compile_of_ok {options : Options} {source : Source} {scanner : Scanner}
    {first : Token}
    (hfirst : (Scanner.ofSource source options.encoding).next = (scanner, .ok first)) :
    (compile options source).tokens = first :: (Statement.read scanner first).tokens := by
  rw [Compilation.tokens, compile, hfirst]
  rfl

theorem outcome_compile_of_error {options : Options} {source : Source} {scanner : Scanner}
    {fault : Fault}
    (hfirst : (Scanner.ofSource source options.encoding).next = (scanner, .error fault)) :
    (compile options source).outcome = .error fault := by
  rw [compile, hfirst]

theorem outcome_compile_of_fault {options : Options} {source : Source} {scanner : Scanner}
    {first : Token} {fault : Fault}
    (hfirst : (Scanner.ofSource source options.encoding).next = (scanner, .ok first))
    (hfault : (Statement.read scanner first).fault = some fault) :
    (compile options source).outcome = .error fault := by
  rw [outcome_compile_of_ok hfirst, hfault]

theorem outcome_compile_of_none {options : Options} {source : Source} {scanner : Scanner}
    {first : Token}
    (hfirst : (Scanner.ofSource source options.encoding).next = (scanner, .ok first))
    (hfault : (Statement.read scanner first).fault = none) :
    (compile options source).outcome = .ok ⟨source.file, (Statement.read scanner first).lines,
      if options.trace then (compile options source).tokens else []⟩ := by
  rw [outcome_compile_of_ok hfirst, hfault, tokens_compile_of_ok hfirst]

/-- A reading that has met the tokens of a statement does not refuse the token after them. -/
theorem Statement.ne_complete_of_fault {scanner after : Scanner} {current last : Token}
    {before : List Token} {emitted : List Instruction} {reached : Stage}
    (hrun : Stage.start.run before = (emitted, .ok reached))
    (htokens : current :: (read scanner current).tokens = before ++ [last])
    (hdraws : scanner.Draws (read scanner current).tokens after)
    (hfault : (read scanner current).fault ≠ none) (target : String) :
    reached ≠ .complete target := by
  rintro rfl
  cases before with
  | nil => cases (Prod.mk.inj hrun).2
  | cons first before =>
      obtain ⟨rfl, hlater⟩ := List.cons.inj htokens
      rw [hlater] at hdraws
      exact hfault (readFrom_of_run hrun hdraws).1

/-- Every compilation ends in one of the three ways. -/
theorem compile_verdict (options : Options) (source : Source) : Verdict options source := by
  rcases hfirst : (Scanner.ofSource source options.encoding).next with ⟨scanner, fault | first⟩
  · -- not even the first token can be drawn
    refine .failed [] _ scanner fault .start [] (.nil _) rfl hfirst ?_ ?_ <;>
      simp only [Compilation.tokens, compile, hfirst]
    rfl
  · have htokens := tokens_compile_of_ok hfirst
    have houtcome := outcome_compile_of_ok hfirst
    cases readFrom_outcome .start scanner first with
    | completed tokens last target hrun hdraws hlast _ hfault =>
        rw [Statement.read, hfault] at houtcome
        refine .accepted (first :: tokens) last _ target _ _ (.cons hfirst hdraws) hrun ?_ houtcome
        rw [htokens, Statement.read, hlast, List.cons_append]
    | refused before reached needed emitted last hbefore hlast hsame _ hdraws hfault =>
        have hreached :=
          ne_complete_of_fault hbefore hsame hdraws (by simp [Statement.read, hfault])
        have hall := Scanner.Draws.cons hfirst hdraws
        rw [hsame] at hall
        rw [Statement.read, hfault, (Scanner.source_of_next hfirst).1] at houtcome
        refine .refused before _ _ reached needed emitted last hall hbefore hreached hlast ?_
          houtcome
        rw [htokens, Statement.read, hsame]
    | failed reached middle fault hrun hdraws hdraw _ hfault =>
        rw [Statement.read, hfault] at houtcome
        exact .failed _ middle _ fault reached _ (.cons hfirst hdraws) hrun hdraw htokens houtcome

end LetLang
