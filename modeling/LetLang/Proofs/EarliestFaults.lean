import LetLang.Proofs.Locations
import LetLang.Proofs.Prefixes
import LetLang.Proofs.Scanning

/-!
# Faults are reported as early as possible

All tokens that a source has are those of its scan. A compilation draws the first of them, and it
stops as soon as it can tell how it ends: at the first token that makes those before it no prefix of
a sentence, at a draw that fails after a prefix of a sentence, or one token after a sentence. No
token is drawn after the end of the input.
-/

namespace LetLang

open Statement Grammar

/-- The tokens that a scan has handed out. -/
def Scan.drawn (scan : Scan) : List Token :=
  scan.tokens.map Prod.fst

def Scan.kinds (scan : Scan) : List Kind :=
  scan.drawn.map Token.kind

namespace Scanner

/-! ## Draws at the start of a scan -/

theorem drawn_of_next {scanner after : Scanner} {token : Token}
    (hdraw : scanner.next = (after, .ok token)) :
    ∃ later, scanner.scan.drawn = token :: later := by
  rw [Scan.drawn, scan_of_ok hdraw]
  split
  · exact ⟨[], rfl⟩
  · exact ⟨after.scan.drawn, rfl⟩

theorem drawn_of_draws {scanner middle : Scanner} {tokens : List Token}
    (hdraws : scanner.Draws tokens middle) (hkinds : ∀ token ∈ tokens, token.kind ≠ .finish) :
    scanner.scan.drawn = tokens ++ middle.scan.drawn ∧ scanner.scan.fault = middle.scan.fault := by
  induction hdraws with
  | nil => exact ⟨rfl, rfl⟩
  | @cons scanner next middle token tokens hdraw _ ih =>
      obtain ⟨htoken, hkinds⟩ := List.forall_mem_cons.mp hkinds
      obtain ⟨hdrawn, hfault⟩ := ih hkinds
      rw [scan_of_ok hdraw, if_neg htoken]
      refine ⟨?_, hfault⟩
      rw [List.cons_append, ← hdrawn]
      rfl

/-- The scan goes on with the token after others. -/
theorem drawn_of_draws_concat {scanner after : Scanner} {tokens : List Token} {last : Token}
    (hdraws : scanner.Draws (tokens ++ [last]) after)
    (hkinds : ∀ token ∈ tokens, token.kind ≠ .finish) :
    ∃ later, scanner.scan.drawn = tokens ++ last :: later := by
  obtain ⟨middle, htokens, hlast⟩ := Draws.concat_iff.mp hdraws
  obtain ⟨later, hlater⟩ := drawn_of_next hlast
  exact ⟨later, by rw [(drawn_of_draws htokens hkinds).1, hlater]⟩

/-- Under a usable encoding only a block comment that never closes ends a scan with a fault. -/
theorem unclosedComment_of_fault_scan {scanner : Scanner} {codec : Encoding} {fault : Fault}
    (hcodec : Encoding.find scanner.encoding.name = .ok codec)
    (hfault : scanner.scan.fault = some fault) :
    ∃ report : Diagnostic, fault = .diagnostic report ∧ report.cause = .unclosedComment := by
  fun_induction scan scanner with
  | case1 scanner after cause hdraw =>
      obtain rfl := Option.some.inj hfault
      rcases next_error_cases hdraw with
        ⟨_, _, _, _, _, rfl, _⟩ | ⟨_, spelling, _, _, _, _, _, _, htext, _, _⟩
      · exact ⟨_, rfl, rfl⟩
      · rw [Spelling.textBy_eq hcodec] at htext
        cases htext
  | case2 => cases hfault
  | case3 scanner after token hdraw _ _ _ ih =>
      refine ih ?_ hfault
      rwa [(source_of_next hdraw).2]

end Scanner

/-- Nothing is drawn after the end of the input, and no such draw is tried. -/
theorem Statement.read_stops {scanner : Scanner} {current token : Token}
    {before later : List Token}
    (htokens : current :: (read scanner current).tokens = before ++ token :: later)
    (hfinish : token.kind = .finish) :
    later = [] ∧ scanner.Draws (read scanner current).tokens (read scanner current).scanner := by
  -- all tokens but the last one were of use, which the end of the input is not
  have hlast {used : List Token} {last : Token} {emitted : List Instruction} {reached : Stage}
      (hrun : Stage.start.run used = (emitted, .ok reached))
      (hall : before ++ token :: later = used ++ [last]) : later = [] := by
    rcases later.eq_nil_or_concat with hnil | ⟨more, other, rfl⟩
    · exact hnil
    · rw [List.concat_eq_append, ← List.cons_append, ← List.append_assoc] at hall
      obtain ⟨rfl, _⟩ := List.append_inj' hall rfl
      exact absurd hfinish (Stage.kind_ne_finish_of_run hrun token (by simp))
  cases readFrom_outcome .start scanner current with
  | completed tokens last target hrun hdraws hall _ _ =>
      rw [Statement.read] at htokens ⊢
      rw [hall] at htokens ⊢
      exact ⟨hlast hrun htokens.symm, hdraws⟩
  | refused used reached needed emitted last hrun _ hall _ hdraws _ =>
      exact ⟨hlast hrun (htokens.symm.trans hall), hdraws⟩
  | failed reached middle fault hrun hdraws hdraw _ _ =>
      refine absurd hfinish (Stage.kind_ne_finish_of_run hrun token ?_)
      rw [Statement.read] at htokens
      rw [htokens]
      simp

/-- What the tokens of a source make its compilation report: nothing, the token they break at, or
the fault that their scan ends with. -/
inductive Reported (source : Source) (scan : Scan) (outcome : Except Fault Result) : Prop where
  | nothing (result : Result) (houtcome : outcome = .ok result)
      (hviable : ¬ Viable scan.kinds) (hbreaks : ∀ index, ¬ BreaksAt scan.kinds index)
  | token (index : Nat) (token : Token) (location : Location)
      (htoken : scan.drawn[index]? = some token) (hbreaks : BreaksAt scan.kinds index)
      (hlocation : token.location = some location)
      (houtcome : outcome = .error (.diagnostic
        ⟨.unexpectedToken token.text (some (due (scan.kinds.take index))), some location,
          some (source.line location.line)⟩))
  | comment (report : Diagnostic) (hcause : report.cause = .unclosedComment)
      (hfault : scan.fault = some (.diagnostic report)) (hviable : Viable scan.kinds)
      (houtcome : outcome = .error (.diagnostic report))

theorem compile_reported {codec : Encoding} {options : Options} (source : Source)
    (hcodec : Encoding.find options.encoding.name = .ok codec) :
    (compile options source).tokens <+: (Scanner.ofSource source options.encoding).scan.drawn ∧
      Reported source (Scanner.ofSource source options.encoding).scan
        (compile options source).outcome := by
  cases compile_verdict options source with
  | accepted tokens last after target emitted result hdraws hrun htokens houtcome =>
      obtain ⟨later, hdrawn⟩ :=
        Scanner.drawn_of_draws_concat hdraws (Stage.kind_ne_finish_of_run hrun)
      refine ⟨⟨later, by simp [hdrawn, htokens]⟩, .nothing result houtcome ?_ ?_⟩
      · rw [Scan.kinds, hdrawn, viable_iff]
        rintro ⟨_, _, hviable⟩
        obtain ⟨_, _, _, hcomplete, hlast, _⟩ := Stage.run_append_eq_ok_iff.mp hviable
        rw [hrun] at hcomplete
        obtain ⟨_, rfl⟩ := mk_ok_inj hcomplete
        exact Stage.run_complete_cons_ne_ok hlast
      · rw [Scan.kinds, hdrawn]
        exact not_breaksAt_of_complete hrun (last :: later)
  | refused before token after reached needed emitted last hdraws hrun hopen hstep htokens
      houtcome =>
      obtain ⟨later, hdrawn⟩ :=
        Scanner.drawn_of_draws_concat hdraws (Stage.kind_ne_finish_of_run hrun)
      obtain ⟨middle, hbefore, hdraw⟩ := Scanner.Draws.concat_iff.mp hdraws
      obtain ⟨_, _, _, _, _, _, _, _, hlocation, _⟩ :=
        (Scanner.Reachable.start.of_draws hbefore).exists_place hdraw
      refine ⟨⟨later, by simp [hdrawn, htokens]⟩,
        .token before.length token _ (by simp [hdrawn]) ?_ hlocation ?_⟩
      · rw [Scan.kinds, hdrawn]
        exact breaksAt_length hrun hopen hstep later
      · rw [houtcome, Scan.kinds, hdrawn, ← List.map_take, List.take_left, unexpected, hlocation,
          Stage.text_of_step_error (Stage.follows_of_run hrun) hopen hstep]
        rfl
  | failed tokens middle after fault reached emitted hdraws hrun hdraw htokens houtcome =>
      obtain ⟨hdrawn, hfault⟩ := Scanner.drawn_of_draws hdraws (Stage.kind_ne_finish_of_run hrun)
      rw [Scanner.scan_of_error hdraw] at hdrawn hfault
      have hfound : Encoding.find (Scanner.ofSource source options.encoding).encoding.name = .ok codec :=
        hcodec
      obtain ⟨report, rfl, hcause⟩ := Scanner.unclosedComment_of_fault_scan hfound hfault
      have hall : (Scanner.ofSource source options.encoding).scan.drawn = tokens := by
        rw [hdrawn]
        exact List.append_nil tokens
      refine ⟨?_, .comment report hcause hfault ?_ houtcome⟩
      · exact ⟨[], by rw [hall, htokens, List.append_nil]⟩
      · rw [Scan.kinds, hall]
        exact viable_iff.mpr ⟨emitted, reached, hrun⟩

namespace Reported

variable {source : Source} {scan : Scan} {outcome : Except Fault Result}

theorem unexpectedToken_iff (hreported : Reported source scan outcome) :
    (∃ report found expected, outcome = .error (.diagnostic report) ∧
      report.cause = .unexpectedToken found expected) ↔ ∃ index, BreaksAt scan.kinds index := by
  cases hreported with
  | nothing result houtcome _ hbreaks => simp [houtcome, hbreaks]
  | token index token location _ hbreaks _ houtcome =>
      exact ⟨fun _ => ⟨index, hbreaks⟩, fun _ => ⟨_, _, _, houtcome, rfl⟩⟩
  | comment report hcause _ hviable houtcome =>
      have hwhole : ¬ ∃ index, BreaksAt scan.kinds index := fun ⟨_, hbreaks⟩ =>
        hbreaks.not_viable hviable
      simp [houtcome, hcause, hwhole]

theorem outcome_of_breaksAt (hreported : Reported source scan outcome) {index : Nat}
    {token : Token} (htoken : scan.drawn[index]? = some token)
    (hbreaks : BreaksAt scan.kinds index) :
    ∃ location, token.location = some location ∧
      outcome = .error (.diagnostic
        ⟨.unexpectedToken token.text (some (due (scan.kinds.take index))), some location,
          some (source.line location.line)⟩) := by
  cases hreported with
  | nothing _ _ _ hwhole => exact absurd hbreaks (hwhole index)
  | token other found location hfound hother hlocation houtcome =>
      obtain rfl := hbreaks.unique hother
      obtain rfl := Option.some.inj (htoken.symm.trans hfound)
      exact ⟨location, hlocation, houtcome⟩
  | comment _ _ _ hviable _ => exact absurd hviable hbreaks.not_viable

theorem unclosedComment_iff (hreported : Reported source scan outcome) (report : Diagnostic) :
    outcome = .error (.diagnostic report) ∧ report.cause = .unclosedComment ↔
      scan.fault = some (.diagnostic report) ∧ Viable scan.kinds := by
  cases hreported with
  | nothing result houtcome hviable _ => simp [houtcome, hviable]
  | token index token location _ hbreaks _ houtcome =>
      constructor
      · rintro ⟨hreport, hcause⟩
        rw [houtcome, Except.error.injEq, Fault.diagnostic.injEq] at hreport
        subst hreport
        cases hcause
      · rintro ⟨_, hviable⟩
        exact absurd hviable hbreaks.not_viable
  | comment other hcause hfault hviable houtcome =>
      rw [houtcome, hfault]
      constructor
      · rintro ⟨hreport, _⟩
        cases hreport
        exact ⟨rfl, hviable⟩
      · rintro ⟨hreport, _⟩
        cases hreport
        exact ⟨rfl, hcause⟩

/-- Nothing else is reported. -/
theorem cause_of_error (hreported : Reported source scan outcome) {fault : Fault}
    (hfault : outcome = .error fault) : ∃ report, fault = .diagnostic report ∧
      (report.cause = .unclosedComment ∨
        ∃ found expected, report.cause = .unexpectedToken found expected) := by
  cases hreported with
  | nothing result houtcome _ _ => cases hfault.symm.trans houtcome
  | token _ _ _ _ _ _ houtcome =>
      cases hfault.symm.trans houtcome
      exact ⟨_, rfl, Or.inr ⟨_, _, rfl⟩⟩
  | comment report hcause _ _ houtcome =>
      cases hfault.symm.trans houtcome
      exact ⟨report, rfl, Or.inl hcause⟩

end Reported

/-- **Faults are reported at the earliest token and of the right kind.** A token is reported
exactly if the tokens of the source break at it, and with what was due there. A comment that
never closes is reported exactly if all tokens before it are a prefix of a sentence or a
whole one. Nothing else is reported, and nothing is drawn after the end of the input. -/
theorem compile_reports_earliest {codec : Encoding} (options : Options) (source : Source)
    (hcodec : Encoding.find options.encoding.name = .ok codec) :
    let scan := (Scanner.ofSource source options.encoding).scan
    let outcome := (compile options source).outcome
    ((∃ report found expected, outcome = .error (.diagnostic report) ∧
        report.cause = .unexpectedToken found expected) ↔
      ∃ index, BreaksAt scan.kinds index) ∧
    (∀ index token, scan.drawn[index]? = some token → BreaksAt scan.kinds index →
      ∃ location, token.location = some location ∧
        outcome = .error (.diagnostic
          ⟨.unexpectedToken token.text (some (due (scan.kinds.take index))), some location,
            some (source.line location.line)⟩)) ∧
    (∀ report, outcome = .error (.diagnostic report) ∧ report.cause = .unclosedComment ↔
      scan.fault = some (.diagnostic report) ∧ Viable scan.kinds) ∧
    (∀ fault, outcome = .error fault → ∃ report, fault = .diagnostic report ∧
      (report.cause = .unclosedComment ∨
        ∃ found expected, report.cause = .unexpectedToken found expected)) ∧
    (compile options source).tokens <+: scan.drawn ∧
    ∀ (scanner : Scanner) (current token : Token) (before later : List Token),
      current :: (read scanner current).tokens = before ++ token :: later →
      token.kind = .finish →
      later = [] ∧ scanner.Draws (read scanner current).tokens (read scanner current).scanner := by
  intro scan outcome
  obtain ⟨hfront, hreported⟩ := compile_reported source hcodec
  exact ⟨hreported.unexpectedToken_iff, fun _ _ => hreported.outcome_of_breaksAt,
    hreported.unclosedComment_iff, fun _ => hreported.cause_of_error, hfront,
    fun _ _ _ _ _ => Statement.read_stops⟩

/-- A mark where an operand is due, right before a comment that never closes. -/
theorem compile_reports_earliest_operand_due :
    let source : Source := ⟨"due", [0x6C, 0x65, 0x74, 0x20, 0x61, 0x3D, 0x31, 0x2B, 0x2A, 0x2F,
      0x2A]⟩
    let scan := (Scanner.ofSource source "utf-8").scan
    Encoding.find "utf-8" = .ok .utf8 ∧ scan.fault ≠ none ∧ BreaksAt scan.kinds 5 ∧
      (∃ token, scan.drawn[5]? = some token ∧ token.text = "*" ∧
        ∃ location, token.location = some location ∧
          (compile .standard source).outcome = .error (.diagnostic
            ⟨.unexpectedToken token.text (some (due (scan.kinds.take 5))), some location,
              some (source.line location.line)⟩)) ∧
      due (scan.kinds.take 5) = "number or identifier" ∧
      ¬ ∃ report, (compile .standard source).outcome = .error (.diagnostic report) ∧
        report.cause = .unclosedComment := by
  intro source scan
  have hkinds : scan.kinds = [.keyword .let, .identifier, .mark .equals, .number, .mark .plus,
      .mark .asterisk] := by
    decide +kernel
  have hbreaks : BreaksAt scan.kinds 5 := by
    rw [hkinds]
    refine ⟨by decide, ⟨_, .statement (Or.inl rfl) (.link (Or.inl rfl) (Or.inl rfl) .done),
      ⟨[.number, .mark .semicolon], rfl⟩, by decide⟩, ?_⟩
    rintro ⟨_, ⟨_, hlinks⟩, hfront⟩
    cases hlinks with
    | done => simp at hfront
    | link _ hoperand _ => rcases hoperand with rfl | rfl <;> simp at hfront
  obtain ⟨_, htoken, hcomment, _⟩ := compile_reports_earliest .standard source rfl
  refine ⟨rfl, by decide +kernel, hbreaks, ?_, by rw [hkinds]; decide, ?_⟩
  · have htext : scan.drawn[5]?.map Token.text = some "*" := by decide +kernel
    obtain ⟨token, hdrawn, htext⟩ := Option.map_eq_some_iff.mp htext
    exact ⟨token, hdrawn, htext, htoken 5 token hdrawn hbreaks⟩
  · rintro ⟨report, hreport⟩
    exact hbreaks.not_viable ((hcomment report).mp hreport).2

end LetLang
