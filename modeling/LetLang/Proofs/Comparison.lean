import LetLang.Proofs.Verdicts
import Mathlib.Logic.Function.Iterate

/-!
# Readings side by side

Two scanners are compared draw by draw. They may hand out tokens that are alike, or fail in the same
way, or part at a string that only one of them can decode. A stage looks at the kind of a token and,
unless it is a string, at its text, and it has no use for a string. So two readings that start alike
end alike or part at the last token of the one.
-/

namespace LetLang

open Statement

/-- The scanner after some draws, failed ones among them. -/
def Scanner.afterDraws (scanner : Scanner) (count : Nat) : Scanner :=
  (fun earlier => earlier.next.1)^[count] scanner

@[simp]
theorem Scanner.afterDraws_zero (scanner : Scanner) : scanner.afterDraws 0 = scanner := rfl

theorem Scanner.afterDraws_succ (scanner : Scanner) (count : Nat) :
    scanner.afterDraws (count + 1) = (scanner.afterDraws count).next.1 :=
  Function.iterate_succ_apply' ..

/-- The first of some draws leads to where the others go on from. -/
theorem Scanner.afterDraws_of_next {scanner after : Scanner} {outcome : Except Fault Token}
    (hdraw : scanner.next = (after, outcome)) (count : Nat) :
    scanner.afterDraws (count + 1) = after.afterDraws count := by
  rw [afterDraws, Function.iterate_succ_apply, hdraw]
  rfl

theorem Scanner.encoding_afterDraws (scanner : Scanner) (count : Nat) :
    (scanner.afterDraws count).encoding = scanner.encoding := by
  induction count with
  | zero => rfl
  | succ count ih =>
      have hdraw : (scanner.afterDraws count).next = (_, (scanner.afterDraws count).next.2) := rfl
      rw [afterDraws_succ]
      exact (source_of_next hdraw).2.trans ih

/-- Scanners with the same rest draw a token that is spelled alike, or both meet the end, or both a
comment that never closes. -/
theorem Scanner.next_cases_of_rest_eq {left right : Scanner} (hrest : left.rest = right.rest) :
    (∃ (gap : List Byte) (spelling : Spelling) (rest : List Byte), Gap.IsGap gap ∧
      spelling.Valid ∧ spelling.EndsBefore rest ∧
      left.rest = gap ++ (spelling.bytes ++ rest) ∧ right.rest = gap ++ (spelling.bytes ++ rest)) ∨
    (left.next = (left.move left.rest [], .ok ⟨.finish, Kind.finish.name,
        some (left.source.locate (left.position.through left.rest))⟩) ∧
      right.next = (right.move left.rest [], .ok ⟨.finish, Kind.finish.name,
        some (right.source.locate (right.position.through left.rest))⟩)) ∨
    ∃ gap comment,
      left.next = (left.move left.rest [],
        .error (.diagnostic (left.move gap comment).unclosedComment)) ∧
      right.next = (right.move left.rest [],
        .error (.diagnostic (right.move gap comment).unclosedComment)) := by
  rcases rest_cases left.rest with ⟨gap, spelling, rest, hgap, hvalid, hends, htext⟩ |
    hfinal | ⟨gap, comment, hgap, hcomment, htext⟩
  · exact Or.inl ⟨gap, spelling, rest, hgap, hvalid, hends, htext, hrest.symm.trans htext⟩
  · have hright := hfinal
    rw [hrest] at hright
    refine Or.inr (Or.inl ⟨next_of_isFinalGap hfinal, ?_⟩)
    rw [next_of_isFinalGap hright, hrest]
  · refine Or.inr (Or.inr ⟨gap, comment, left.next_of_unclosed hgap hcomment htext, ?_⟩)
    rw [right.next_of_unclosed hgap hcomment (hrest.symm.trans htext), hrest]

namespace Statement.Stage

/-- Tokens of one kind do the same in a stage if strings are all that they differ by. -/
theorem step_congr {first second : Token} (hkind : first.kind = second.kind)
    (htext : first.kind ≠ .string → first.text = second.text) (stage : Stage) :
    stage.step first = stage.step second := by
  by_cases hstring : first.kind = .string
  · cases stage <;> simp [step, ← hkind, hstring]
  · cases stage <;> simp [step, ← hkind, htext hstring]

theorem step_of_string {token : Token} (hkind : token.kind = .string) (stage : Stage) :
    ∃ emitted needed, stage.step token = (emitted, .error needed) := by
  cases stage <;> simp [step, hkind]

end Statement.Stage

/-- What is kept up between two scanners, and what the draws of both have in common. -/
structure Comparison where
  related : Scanner → Scanner → Prop
  alike : Token → Token → Prop
  same : Fault → Fault → Prop
  /-- From the first scanner a token is drawn where the draw from the second one fails. -/
  parted : Scanner → Token → Fault → Prop

namespace Comparison

/-- How a draw from each of two scanners can go. -/
inductive Drawn (compared : Comparison) (first second : Scanner) : Prop where
  | token (after later : Scanner) (token other : Token)
      (hfirst : first.next = (after, .ok token)) (hsecond : second.next = (later, .ok other))
      (hrelated : compared.related after later) (halike : compared.alike token other)
  | fault (after later : Scanner) (fault other : Fault)
      (hfirst : first.next = (after, .error fault))
      (hsecond : second.next = (later, .error other))
      (hrelated : compared.related after later) (hsame : compared.same fault other)
  | parted (after later : Scanner) (token : Token) (fault : Fault)
      (hfirst : first.next = (after, .ok token)) (hsecond : second.next = (later, .error fault))
      (hparted : compared.parted first token fault)

/-- Whether draws keep two scanners related, and tokens are alike where it matters to a stage. -/
structure Lawful (compared : Comparison) : Prop where
  draw : ∀ {first second : Scanner}, compared.related first second → compared.Drawn first second
  kind : ∀ {token other : Token}, compared.alike token other → token.kind = other.kind
  text : ∀ {token other : Token}, compared.alike token other → token.kind ≠ .string →
    token.text = other.text
  string : ∀ {scanner : Scanner} {token : Token} {fault : Fault},
    compared.parted scanner token fault → token.kind = .string

/-- What two readings that do not part have in common. -/
structure Agree (compared : Comparison) (first second : Reading) : Prop where
  instructions : first.instructions = second.instructions
  tokens : List.Forall₂ compared.alike first.tokens second.tokens
  scanner : compared.related first.scanner second.scanner
  current : compared.alike first.current second.current

/-- How two readings side by side end, the first of which draws from a scanner. -/
inductive Ends (compared : Comparison) (scanner : Scanner) (first second : Reading) : Prop where
  | completed (hagree : compared.Agree first second) (hfirst : first.fault = none)
      (hsecond : second.fault = none)
  /-- Both refuse the token in hand, for want of the same. -/
  | refused (hagree : compared.Agree first second) (needed : Expectation)
      (hfirst : first.fault =
        some (.diagnostic (unexpected first.scanner.source first.current needed)))
      (hsecond : second.fault =
        some (.diagnostic (unexpected second.scanner.source second.current needed)))
  | failed (hagree : compared.Agree first second) (fault other : Fault)
      (hsame : compared.same fault other) (hfirst : first.fault = some fault)
      (hsecond : second.fault = some other)
  /-- The last draw of the first reading is where the second one fails. -/
  | parted (tokens : List Token) (before after : Scanner) (token : Token) (fault : Fault)
      (hdraws : scanner.Draws tokens before) (hdraw : before.next = (after, .ok token))
      (hparted : compared.parted before token fault) (htokens : first.tokens = tokens ++ [token])
      (hsecond : second.fault = some fault)

variable {compared : Comparison}

theorem Agree.after {first second : Reading} (hagree : compared.Agree first second)
    (emitted : List Instruction) {token other : Token} (halike : compared.alike token other) :
    compared.Agree (first.after (emitted.map .emitted ++ [.drawn token]))
      (second.after (emitted.map .emitted ++ [.drawn other])) := by
  obtain ⟨hinstructions, htokens⟩ := views_after first emitted token
  obtain ⟨hothers, hlater⟩ := views_after second emitted other
  refine ⟨?_, ?_, hagree.scanner, hagree.current⟩
  · rw [hinstructions, hothers, hagree.instructions]
  · rw [htokens, hlater]
    exact .cons halike hagree.tokens

/-- Tokens alike and the same instructions in front of two readings change nothing about how they
end. -/
theorem Ends.after {scanner middle : Scanner} {first second : Reading} {token other : Token}
    (hends : compared.Ends middle first second) (emitted : List Instruction)
    (hdraw : scanner.next = (middle, .ok token)) (halike : compared.alike token other) :
    compared.Ends scanner (first.after (emitted.map .emitted ++ [.drawn token]))
      (second.after (emitted.map .emitted ++ [.drawn other])) := by
  cases hends with
  | completed hagree hfirst hsecond =>
      exact .completed (hagree.after emitted halike) hfirst hsecond
  | refused hagree needed hfirst hsecond =>
      exact .refused (hagree.after emitted halike) needed hfirst hsecond
  | failed hagree fault cause hsame hfirst hsecond =>
      exact .failed (hagree.after emitted halike) fault cause hsame hfirst hsecond
  | parted tokens before after last fault hdraws hlast hparted htokens hsecond =>
      refine .parted (token :: tokens) before after last fault (.cons hdraw hdraws) hlast hparted
        ?_ hsecond
      rw [(views_after first emitted token).2, htokens, List.cons_append]

/-- What fails for the first scanner fails for the second one. -/
theorem Lawful.draw_error (hlawful : compared.Lawful) {first second after : Scanner}
    {fault : Fault} (hrelated : compared.related first second)
    (hdraw : first.next = (after, .error fault)) :
    ∃ later cause, second.next = (later, .error cause) ∧ compared.related after later ∧
      compared.same fault cause := by
  cases hlawful.draw hrelated with
  | token _ _ _ _ hfirst => cases (Prod.mk.inj (hdraw.symm.trans hfirst)).2
  | fault _ later _ cause hfirst hsecond hafter hsame =>
      obtain ⟨rfl, hfault⟩ := Prod.mk.inj (hdraw.symm.trans hfirst)
      obtain rfl := Except.error.inj hfault
      exact ⟨later, cause, hsecond, hafter, hsame⟩
  | parted _ _ _ _ hfirst => cases (Prod.mk.inj (hdraw.symm.trans hfirst)).2

/-- Where the first scanner has a token the second one has one alike, or they part. -/
theorem Lawful.draw_ok (hlawful : compared.Lawful) {first second after : Scanner} {token : Token}
    (hrelated : compared.related first second) (hdraw : first.next = (after, .ok token)) :
    (∃ later other, second.next = (later, .ok other) ∧ compared.related after later ∧
      compared.alike token other) ∨
    ∃ later fault, second.next = (later, .error fault) ∧ compared.parted first token fault := by
  cases hlawful.draw hrelated with
  | token _ later _ other hfirst hsecond hafter halike =>
      obtain ⟨rfl, rfl⟩ := mk_ok_inj (hdraw.symm.trans hfirst)
      exact Or.inl ⟨later, other, hsecond, hafter, halike⟩
  | fault _ _ _ _ hfirst => cases (Prod.mk.inj (hdraw.symm.trans hfirst)).2
  | parted _ later _ fault hfirst hsecond hparted =>
      obtain ⟨rfl, rfl⟩ := mk_ok_inj (hdraw.symm.trans hfirst)
      exact Or.inr ⟨later, fault, hsecond, hparted⟩

/-- Scanners stay related, draw by draw, until they part. -/
theorem Lawful.related_afterDraws (hlawful : compared.Lawful) {first second : Scanner}
    (hrelated : compared.related first second) {count : Nat}
    (hunparted : ∀ earlier < count, ∀ token fault,
      ¬ compared.parted (first.afterDraws earlier) token fault) :
    compared.related (first.afterDraws count) (second.afterDraws count) := by
  induction count with
  | zero => exact hrelated
  | succ count ih =>
      have hbefore := ih fun earlier hearlier => hunparted earlier (Nat.lt_succ_of_lt hearlier)
      rw [Scanner.afterDraws_succ, Scanner.afterDraws_succ]
      cases hlawful.draw hbefore with
      | token _ _ _ _ hfirst hsecond hafter _ => rwa [hfirst, hsecond]
      | fault _ _ _ _ hfirst hsecond hafter _ => rwa [hfirst, hsecond]
      | parted _ _ token fault _ _ hparted =>
          exact absurd hparted (hunparted count (Nat.lt_succ_self count) token fault)

/-- Readings from related scanners with tokens alike in hand end alike, or part. -/
theorem Lawful.readFrom (hlawful : compared.Lawful) {stage : Stage} {scanner other : Scanner}
    {current held : Token} (hrelated : compared.related scanner other)
    (halike : compared.alike current held) :
    compared.Ends scanner (Statement.readFrom stage scanner current)
      (Statement.readFrom stage other held) := by
  have hcongr (stage : Stage) {token other : Token} (halike : compared.alike token other) :
      stage.step token = stage.step other :=
    stage.step_congr (hlawful.kind halike) (hlawful.text halike)
  fun_induction Statement.readFrom stage scanner current generalizing other held with
  | case1 stage scanner current emitted needed hstep =>
      rw [hcongr stage halike] at hstep
      rw [readFrom_of_refused hstep]
      exact .refused ⟨rfl, by simp, hrelated, halike⟩ needed rfl rfl
  | case2 stage scanner current emitted next hstep after fault hdraw =>
      rw [hcongr stage halike] at hstep
      obtain ⟨later, cause, hsecond, hafter, hsame⟩ := hlawful.draw_error hrelated hdraw
      rw [readFrom_of_failed hstep hsecond]
      exact .failed ⟨rfl, by simp, hafter, halike⟩ fault cause hsame rfl rfl
  | case3 stage scanner current emitted after token hdraw target hstep =>
      rw [hcongr stage halike] at hstep
      obtain ⟨hinstructions, htokens⟩ := views_completed emitted token target after token none
      rcases hlawful.draw_ok hrelated hdraw with
        ⟨later, drawn, hsecond, hafter, hdrawn⟩ | ⟨later, fault, hsecond, hparted⟩
      · obtain ⟨hothers, hlater⟩ := views_completed emitted drawn target later drawn none
        rw [readFrom_of_complete hstep hsecond]
        refine .completed ⟨hinstructions.trans hothers.symm, ?_, hafter, hdrawn⟩ rfl rfl
        rw [htokens, hlater]
        exact .cons hdrawn .nil
      · rw [readFrom_of_failed hstep hsecond]
        exact .parted [] scanner after token fault (.nil scanner) hdraw hparted htokens rfl
  | case4 stage scanner current emitted after token hdraw next hstep hnext _ _ ih =>
      have hopen (target : String) : next ≠ .complete target := by
        rintro rfl
        exact hnext target hstep rfl HEq.rfl
      rw [hcongr stage halike] at hstep
      rcases hlawful.draw_ok hrelated hdraw with
        ⟨later, drawn, hsecond, hafter, hdrawn⟩ | ⟨later, fault, hsecond, hparted⟩
      · rw [readFrom_of_open hstep hsecond hopen]
        exact (ih hafter hdrawn).after emitted hdraw hdrawn
      · -- what the first reading has drawn is a string, which it has no use for
        obtain ⟨last, needed, hrefused⟩ := next.step_of_string (hlawful.string hparted)
        rw [readFrom_of_refused hrefused, readFrom_of_failed hstep hsecond]
        refine .parted [] scanner after token fault (.nil scanner) hdraw hparted ?_ rfl
        rw [(views_after _ emitted token).2, tokens_mk_emitted, List.nil_append]

/-! ## Compilations -/

/-- How compilations side by side end. -/
inductive Compiled (compared : Comparison) (options others : Options) (source other : Source) :
    Prop where
  | accepted (lines : List String)
      (hleft : (compile options source).outcome = .ok
        ⟨source.file, lines, if options.trace then (compile options source).tokens else []⟩)
      (hright : (compile others other).outcome = .ok
        ⟨other.file, lines, if others.trace then (compile others other).tokens else []⟩)
      (htokens : List.Forall₂ compared.alike (compile options source).tokens
        (compile others other).tokens)
  /-- Both refuse the last token drawn, for want of the same. -/
  | refused (left right : Token) (needed : Expectation)
      (hlast : (compile options source).tokens.getLast? = some left)
      (hother : (compile others other).tokens.getLast? = some right)
      (halike : compared.alike left right)
      (hleft : (compile options source).outcome =
        .error (.diagnostic (unexpected source left needed)))
      (hright : (compile others other).outcome =
        .error (.diagnostic (unexpected other right needed)))
  | failed (left right : Fault) (hsame : compared.same left right)
      (hleft : (compile options source).outcome = .error left)
      (hright : (compile others other).outcome = .error right)
  /-- The last draw of the first compilation is where the second one fails. -/
  | parted (tokens : List Token) (before after : Scanner) (token : Token) (fault : Fault)
      (hdraws : (Scanner.ofSource source options.encoding).Draws tokens before)
      (hdraw : before.next = (after, .ok token)) (hparted : compared.parted before token fault)
      (htokens : (compile options source).tokens = tokens ++ [token])
      (hright : (compile others other).outcome = .error fault)

/-- Compilations from related scanners end alike, or part. -/
theorem Lawful.compile (hlawful : compared.Lawful) {options others : Options}
    {source other : Source}
    (hrelated : compared.related (Scanner.ofSource source options.encoding)
      (Scanner.ofSource other others.encoding)) :
    compared.Compiled options others source other := by
  cases hlawful.draw hrelated with
  | token after later token held hleft hright hrelated halike =>
      have hlast := getLast?_readFrom .start after token
      have hother := getLast?_readFrom .start later held
      have hsource := (source_readFrom .start after token).trans (Scanner.source_of_next hleft).1
      have hsourceOther :=
        (source_readFrom .start later held).trans (Scanner.source_of_next hright).1
      have hreadings : compared.Ends after (read after token) (read later held) :=
        hlawful.readFrom hrelated halike
      cases hreadings with
      | completed hagree hfirst hsecond =>
          have hright' := outcome_compile_of_none hright hsecond
          rw [Reading.lines, ← hagree.instructions] at hright'
          refine .accepted _ (outcome_compile_of_none hleft hfirst) hright' ?_
          rw [tokens_compile_of_ok hleft, tokens_compile_of_ok hright]
          exact .cons halike hagree.tokens
      | refused hagree needed hfirst hsecond =>
          rw [Statement.read, hsource] at hfirst
          rw [Statement.read, hsourceOther] at hsecond
          refine .refused _ _ needed ?_ ?_ hagree.current
            (outcome_compile_of_fault hleft hfirst) (outcome_compile_of_fault hright hsecond)
          · rw [tokens_compile_of_ok hleft]
            exact hlast
          · rw [tokens_compile_of_ok hright]
            exact hother
      | failed hagree fault cause hsame hfirst hsecond =>
          exact .failed fault cause hsame (outcome_compile_of_fault hleft hfirst)
            (outcome_compile_of_fault hright hsecond)
      | parted tokens before final last fault hdraws hdraw hparted htokens hsecond =>
          refine .parted (token :: tokens) before final last fault (.cons hleft hdraws) hdraw
            hparted ?_ (outcome_compile_of_fault hright hsecond)
          rw [tokens_compile_of_ok hleft, htokens, List.cons_append]
  | fault after later fault cause hleft hright hrelated hsame =>
      exact .failed fault cause hsame (outcome_compile_of_error hleft)
        (outcome_compile_of_error hright)
  | parted after later token fault hleft hright hparted =>
      -- what the first compilation starts with is a string, which no statement does
      obtain ⟨last, needed, hrefused⟩ := Stage.start.step_of_string (hlawful.string hparted)
      refine .parted [] _ after token fault (.nil _) hleft hparted ?_
        (outcome_compile_of_error hright)
      rw [tokens_compile_of_ok hleft, Statement.read, readFrom_of_refused hrefused,
        tokens_mk_emitted, List.nil_append]

end Comparison

end LetLang
