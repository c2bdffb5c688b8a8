import LetLang.Proofs.Agreement

/-!
# Listings and compilations

A listing shows every token of a source and fails where the scan fails. A compilation of the same
source draws the first of these tokens and stops as soon as it can. So a comment that never closes
may spoil the listing only, but one that spoils the compilation is reported by both in the same
words; and the listing of a source that is accepted begins with the tokens of its statement.
-/

namespace LetLang

open Statement

/-! ## Scans -/

/-- The tokens that draws hand out up to the first end of the input, or up to the first draw that
fails, and what made it fail. -/
inductive Scanner.Scanned (scanner : Scanner) : List Token → Option Fault → Prop where
  | finished (tokens : List Token) (last : Token) (after : Scanner)
      (hdraws : scanner.Draws (tokens ++ [last]) after)
      (hkinds : ∀ token ∈ tokens, token.kind ≠ .finish) (hlast : last.kind = .finish) :
      Scanned scanner (tokens ++ [last]) none
  | failed (tokens : List Token) (middle after : Scanner) (fault : Fault)
      (hdraws : scanner.Draws tokens middle) (hkinds : ∀ token ∈ tokens, token.kind ≠ .finish)
      (hdraw : middle.next = (after, .error fault)) :
      Scanned scanner tokens (some fault)

theorem Scanner.Scanned.cons {scanner after : Scanner} {token : Token} {tokens : List Token}
    {fault : Option Fault} (hdraw : scanner.next = (after, .ok token))
    (hkind : token.kind ≠ .finish) (hscanned : after.Scanned tokens fault) :
    scanner.Scanned (token :: tokens) fault := by
  cases hscanned with
  | finished tokens last final hdraws hkinds hlast =>
      exact .finished (token :: tokens) last final (.cons hdraw hdraws)
        (List.forall_mem_cons.mpr ⟨hkind, hkinds⟩) hlast
  | failed tokens middle final fault hdraws hkinds hfailed =>
      exact .failed (token :: tokens) middle final fault (.cons hdraw hdraws)
        (List.forall_mem_cons.mpr ⟨hkind, hkinds⟩) hfailed

theorem Scanner.scanned (scanner : Scanner) :
    scanner.Scanned scanner.scan.drawn scanner.scan.fault := by
  fun_induction scan scanner with
  | case1 scanner after fault hdraw =>
      exact .failed [] scanner after fault (.nil scanner) (by simp) hdraw
  | case2 scanner after token hdraw hfinish =>
      exact .finished [] token after (.cons hdraw (.nil after)) (by simp) hfinish
  | case3 scanner after token hdraw hfinish _ _ ih => exact .cons hdraw hfinish ih

/-! ## Entries -/

/-- The entry of a token in a listing by the kind and the text of the token. -/
def entryOf (key : Kind × String) : String := key.1.name ++ " " ++ key.2

theorem Kind.isPrintable_name (kind : Kind) : IsPrintable kind.name := by
  have hall : ∀ kind ∈ Kind.all, IsPrintable kind.name := by decide +kernel
  exact hall kind kind.mem_all

theorem Statement.WellFormed.isPrintable_tokens {statement : Statement}
    (hstatement : statement.WellFormed) : ∀ key ∈ statement.tokens, IsPrintable key.2 := by
  have hmark (operator : Operator) : IsPrintable (latinText [(markOf operator).byte]) := by
    cases operator <;> decide
  have htarget : IsTerm statement.target := Or.inr hstatement.target
  simp only [tokens, List.forall_mem_append, List.forall_mem_cons, List.mem_flatMap]
  refine ⟨⟨⟨by decide, htarget.isPrintable, by decide, hstatement.first.isPrintable, by simp⟩, ?_⟩,
    by decide, by simp⟩
  rintro key ⟨link, hlink, hkey⟩
  rcases List.mem_pair.mp hkey with rfl | rfl
  · exact hmark link.1
  · exact (hstatement.rest link hlink).isPrintable

/-- The tokens of a statement are listed as they are. -/
theorem Statement.WellFormed.plain_listing {statement : Statement} {tokens : List Token}
    (hstatement : statement.WellFormed) (hkeys : tokens.map Token.key = statement.tokens) :
    tokens.map (fun token => Text.plain token.listing) = statement.tokens.map entryOf := by
  rw [← hkeys, List.map_map]
  apply List.map_congr_left
  intro token htoken
  have htext : IsPrintable token.key.2 := by
    apply hstatement.isPrintable_tokens
    rw [← hkeys]
    exact List.mem_map_of_mem htoken
  have hspace : IsPrintable " " := by decide
  exact ((token.kind.isPrintable_name.append hspace).append htext).plain

namespace CommandLine

variable {line : List String} {files : FileTree} {arguments : Arguments} {source : Source}

/-- Whether a command line asks to list the tokens of a source, without a log. -/
structure AsksToList (line : List String) (files : FileTree) (arguments : Arguments)
    (source : Source) : Prop extends Asks line files arguments source where
  listing : arguments.has .tokens = true
  quiet : arguments.has .verbose = false

/-- The listing of tokens: one entry for each in plain text. -/
def listingOf (tokens : List Token) : String :=
  textOfLines (tokens.map fun token => Text.plain token.listing)

theorem listingOf_append (first second : List Token) :
    listingOf (first ++ second) = listingOf first ++ listingOf second := by
  simp [listingOf, textOfLines]

namespace AsksToList

theorem exists_leave (hasks : AsksToList line files arguments source) :
    let scan := (Scanner.ofSource source arguments.encoding).scan
    ∃ (request : Request) (log : List String), request.verbose = false ∧
      run line files =
        request.leave files (listingOf scan.drawn) log (scan.fault.map Failure.ofFault) := by
  obtain ⟨input, hrun⟩ := hasks.toAsks.exists_listed hasks.listing
  rw [Request.list_of_takes Surroundings.takes_calm] at hrun
  exact ⟨_, _, hasks.quiet, hrun⟩

theorem run_of_none (hasks : AsksToList line files arguments source)
    (hscan : (Scanner.ofSource source arguments.encoding).scan.fault = none) :
    run line files = ⟨.success,
      listingOf (Scanner.ofSource source arguments.encoding).scan.drawn, "", files⟩ := by
  obtain ⟨request, log, hquiet, hrun⟩ := hasks.exists_leave
  rw [hrun, hscan, Option.map_none, Request.leave_of_success hquiet]

theorem run_of_fault {fault : Fault} (hasks : AsksToList line files arguments source)
    (hscan : (Scanner.ofSource source arguments.encoding).scan.fault = some fault) :
    run line files = ⟨(Failure.ofFault fault).exitCode,
      listingOf (Scanner.ofSource source arguments.encoding).scan.drawn,
      Text.plain (Failure.ofFault fault).message ++ "\n", files⟩ := by
  obtain ⟨request, log, hquiet, hrun⟩ := hasks.exists_leave
  rw [hrun, hscan, Option.map_some, Request.leave_of_failure hquiet]

theorem run_of_report {report : Diagnostic} (hasks : AsksToList line files arguments source)
    (hscan : (Scanner.ofSource source arguments.encoding).scan.fault = some (.diagnostic report)) :
    run line files = ⟨.buildError,
      listingOf (Scanner.ofSource source arguments.encoding).scan.drawn,
      Text.plain report.render ++ "\n", files⟩ := by
  rw [hasks.run_of_fault hscan]
  rfl

/-- A listing shows all tokens, or those before a comment that never closes. -/
theorem run_cases {codec : Encoding} (hasks : AsksToList line files arguments source)
    (hcodec : Encoding.find arguments.encoding = .ok codec) :
    (∃ tokens, (Scanner.ofSource source arguments.encoding).Scanned tokens none ∧
        run line files = ⟨.success, listingOf tokens, "", files⟩) ∨
      ∃ tokens report,
        (Scanner.ofSource source arguments.encoding).Scanned tokens (some (.diagnostic report)) ∧
        report.cause = .unclosedComment ∧
        run line files =
          ⟨.buildError, listingOf tokens, Text.plain report.render ++ "\n", files⟩ := by
  have hscanned := (Scanner.ofSource source arguments.encoding).scanned
  have hfound : Encoding.find (Scanner.ofSource source arguments.encoding).encoding.name =
      .ok codec := hcodec
  cases hfault : (Scanner.ofSource source arguments.encoding).scan.fault with
  | none =>
      rw [hfault] at hscanned
      exact .inl ⟨_, hscanned, hasks.run_of_none hfault⟩
  | some fault =>
      obtain ⟨report, rfl, hcause⟩ := Scanner.unclosedComment_of_fault_scan hfound hfault
      rw [hfault] at hscanned
      exact .inr ⟨_, report, hscanned, hcause, hasks.run_of_report hfault⟩

/-- The listing of a source that is accepted begins with the tokens of its statement. -/
theorem exists_statement {result : Result} (hasks : AsksToList line files arguments source)
    (hresult : (compile ⟨arguments.encoding, false⟩ source).outcome = .ok result) :
    ∃ (statement : Statement) (rest : String), result.instructions = statement.lines ∧
      (run line files).output = textOfLines (statement.tokens.map entryOf) ++ rest := by
  obtain ⟨statement, hstatement, ⟨tokens, middle, hdraws, hkeys⟩, hlines⟩ :=
    exists_wellFormed_of_outcome hresult
  -- no token of a statement is the end of the input, so the scan goes on after them
  have hkinds := Stage.kind_ne_finish_of_run (Stage.run_tokens hkeys)
  have hlisted : listingOf (Scanner.ofSource source arguments.encoding).scan.drawn =
      textOfLines (statement.tokens.map entryOf) ++ listingOf middle.scan.drawn := by
    rw [(Scanner.drawn_of_draws hdraws hkinds).1, listingOf_append, listingOf,
      hstatement.plain_listing hkeys]
  refine ⟨statement, listingOf middle.scan.drawn, hlines, ?_⟩
  cases hfault : (Scanner.ofSource source arguments.encoding).scan.fault with
  | none => rw [hasks.run_of_none hfault, hlisted]
  | some fault => rw [hasks.run_of_fault hfault, hlisted]

/-- If the compilation reports a comment that never closes, the listing reports it as well. -/
theorem run_of_unclosedComment {codec : Encoding} {report : Diagnostic}
    (hasks : AsksToList line files arguments source)
    (hcodec : Encoding.find arguments.encoding = .ok codec)
    (hreport : (compile ⟨arguments.encoding, false⟩ source).outcome = .error (.diagnostic report))
    (hcause : report.cause = .unclosedComment) :
    run line files = ⟨.buildError,
      listingOf (Scanner.ofSource source arguments.encoding).scan.drawn,
      Text.plain report.render ++ "\n", files⟩ := by
  have hfound : Encoding.find (Options.mk arguments.encoding false).encoding.name = .ok codec :=
    hcodec
  obtain ⟨_, hreported⟩ := compile_reported source hfound
  obtain ⟨hscan, _⟩ := (hreported.unclosedComment_iff report).mp ⟨hreport, hcause⟩
  exact hasks.run_of_report hscan

/-- If the listing ends well, the compilation finds no fault with the tokens themselves. -/
theorem isLexical_of_success {codec : Encoding} {fault : Fault}
    (hasks : AsksToList line files arguments source)
    (hcodec : Encoding.find arguments.encoding = .ok codec)
    (hfault : (compile ⟨arguments.encoding, false⟩ source).outcome = .error fault)
    (hexit : (run line files).exitCode = .success) :
    ∃ report, fault = .diagnostic report ∧ report.cause.isLexical = false := by
  have hfound : Encoding.find (Options.mk arguments.encoding false).encoding.name = .ok codec :=
    hcodec
  obtain ⟨_, hreported⟩ := compile_reported source hfound
  obtain ⟨report, rfl, hcause⟩ := hreported.cause_of_error hfault
  refine ⟨report, rfl, ?_⟩
  rcases hcause with hcause | ⟨found, expected, hcause⟩
  · -- the listing would have failed on that comment
    rw [hasks.run_of_unclosedComment hcodec hfault hcause] at hexit
    cases hexit
  · rw [hcause]
    rfl

end AsksToList

/-- **The listing of a source and its compilation tell the same.** A listing shows each token that a
fresh scanner draws, up to the end of the input or up to a comment that never closes, which it
reports. If the compilation reports such a comment, the listing reports it in the same words; if the
listing ends well, the compilation reports none. And the listing of a source that is accepted begins
with the tokens of a statement, whose instructions are printed by a run that compiles. -/
theorem listing_tells {codec : Encoding} (hasks : AsksToList line files arguments source)
    (hcodec : Encoding.find arguments.encoding = .ok codec) :
    let scanner := Scanner.ofSource source arguments.encoding
    let listing := run line files
    let compiled := (compile ⟨arguments.encoding, false⟩ source).outcome
    ((∃ tokens, scanner.Scanned tokens none ∧
        listing = ⟨.success, listingOf tokens, "", files⟩) ∨
      ∃ tokens report, scanner.Scanned tokens (some (.diagnostic report)) ∧
        report.cause = .unclosedComment ∧
        listing = ⟨.buildError, listingOf tokens, Text.plain report.render ++ "\n", files⟩) ∧
    (∀ report, compiled = .error (.diagnostic report) → report.cause = .unclosedComment →
      listing.exitCode = .buildError ∧ ∀ other others, AsksToCompile other files others source →
        others.encoding = arguments.encoding → listing.errors = (run other files).errors) ∧
    (listing.exitCode = .success → ∀ fault, compiled = .error fault →
      ∃ report, fault = .diagnostic report ∧ report.cause.isLexical = false) ∧
    ∀ result, compiled = .ok result → ∃ (statement : Statement) (rest : String),
      listing.output = textOfLines (statement.tokens.map entryOf) ++ rest ∧
      result.instructions = statement.instructions.map Instruction.line ∧
      ∀ other others, AsksToCompile other files others source →
        others.encoding = arguments.encoding → others.value? .output = none →
        (run other files).output = textOfLines (statement.instructions.map Instruction.line) := by
  intro scanner listing compiled
  refine ⟨hasks.run_cases hcodec, ?_, ?_, ?_⟩
  · intro report hreport hcause
    have hlisting : listing = _ := hasks.run_of_unclosedComment hcodec hreport hcause
    rw [hlisting]
    refine ⟨rfl, ?_⟩
    intro other others hother hencoding
    have hrefused : (compile ⟨others.encoding, false⟩ source).outcome =
        .error (.diagnostic report) := by
      rw [hencoding]
      exact hreport
    rw [hother.run_of_report hrefused]
  · intro hexit fault hfault
    exact hasks.isLexical_of_success hcodec hfault hexit
  · intro result hresult
    obtain ⟨statement, rest, hlines, hlisted⟩ := hasks.exists_statement hresult
    rw [← statement.map_line_instructions] at hlines
    refine ⟨statement, rest, hlisted, hlines, ?_⟩
    intro other others hother hencoding hnone
    have haccepted : (compile ⟨others.encoding, false⟩ source).outcome = .ok result := by
      rw [hencoding]
      exact hresult
    rw [hother.run_printed haccepted hnone, Result.text, hlines]

/-- A statement in front of a comment that never closes, which only the listing comes to. -/
theorem listing_tells_past_the_statement :
    let text := "let x = 1; y /*"
    (run ["--tokens", "-e", text] .empty).exitCode = .buildError ∧
      ∃ (statement : Statement) (rest : String),
        (run ["--tokens", "-e", text] .empty).output =
          textOfLines (statement.tokens.map entryOf) ++ rest ∧
        (run ["-e", text] .empty).output =
          textOfLines (statement.instructions.map Instruction.line) := by
  intro text
  let source : Source := ⟨"<expr>", text.toUTF8.toList⟩
  have hlisting : AsksToList ["--tokens", "-e", text] .empty
      ⟨[.flag .tokens, .setting .expression text], []⟩ source :=
    ⟨.of_expression (by decide +kernel) rfl (by decide +kernel) rfl rfl, rfl, rfl⟩
  have hcompiling : AsksToCompile ["-e", text] .empty
      ⟨[.setting .expression text], []⟩ source :=
    ⟨.of_expression (by decide +kernel) rfl (by decide +kernel) rfl rfl, rfl, rfl⟩
  have hcodec : Encoding.find "utf-8" = .ok .utf8 := by decide +kernel
  obtain ⟨_, _, _, haccepts⟩ := listing_tells hlisting hcodec
  have haccepted : (compile ⟨"utf-8", false⟩ source).outcome.toOption.isSome = true := by
    decide +kernel
  refine ⟨by decide +kernel, ?_⟩
  cases hresult : (compile ⟨"utf-8", false⟩ source).outcome with
  | error fault =>
      rw [hresult] at haccepted
      cases haccepted
  | ok result =>
      obtain ⟨statement, rest, houtput, _, hprinted⟩ := haccepts result hresult
      exact ⟨statement, rest, houtput, hprinted _ _ hcompiling rfl rfl⟩

/-- A string that holds control sequences. -/
theorem listing_tells_not_literally :
    ∃ (arguments : Arguments) (source : Source),
      AsksToList ["--tokens", "-e", "\"\x1b[31mred\x1b[0m\" x"] .empty arguments source ∧
      Encoding.find arguments.encoding = .ok .utf8 ∧
      (Scanner.ofSource source arguments.encoding).scan.fault = none ∧
      (run ["--tokens", "-e", "\"\x1b[31mred\x1b[0m\" x"] .empty).output ≠ textOfLines
        ((Scanner.ofSource source arguments.encoding).scan.drawn.map Token.listing) := by
  let text := "\"\x1b[31mred\x1b[0m\" x"
  refine ⟨⟨[.flag .tokens, .setting .expression text], []⟩, ⟨"<expr>", text.toUTF8.toList⟩, ?_,
    by decide +kernel, by decide +kernel, by decide +kernel⟩
  exact ⟨.of_expression (by decide +kernel) rfl (by decide +kernel) rfl rfl, rfl, rfl⟩

end CommandLine

end LetLang
