import LetLang.Statement.Reading
import LetLang.Proofs.Draws

/-!
# How the reading of a statement ends

A run gives tokens to a stage without drawing them. The reading of a statement is a run over
the token in hand and the tokens it draws, and it ends in one of three ways: the statement is
complete and one more token has been drawn, a token is of no use, or a draw fails. What was
emitted is what the run emits.
-/

namespace LetLang.Statement

/-- Give tokens to a stage in order: the instructions emitted, and the stage reached or what was
needed instead of the first token of no use. -/
def Stage.run (stage : Stage) : List Token → List Instruction × Except Expectation Stage
  | [] => ([], .ok stage)
  | token :: rest =>
      match stage.step token with
      | (emitted, .error needed) => (emitted, .error needed)
      | (emitted, .ok next) => (emitted ++ (next.run rest).1, (next.run rest).2)

namespace Stage

theorem run_cons_of_ok {stage next : Stage} {token : Token} {emitted : List Instruction}
    (hstep : stage.step token = (emitted, .ok next)) (rest : List Token) :
    stage.run (token :: rest) = (emitted ++ (next.run rest).1, (next.run rest).2) := by
  rw [run, hstep]

theorem run_singleton (stage : Stage) (token : Token) : stage.run [token] = stage.step token := by
  rw [run]
  split
  next hstep => rw [hstep]
  next hstep => simp [hstep, run]

theorem run_cons_eq_ok_iff {stage final : Stage} {token : Token} {rest : List Token}
    {emitted : List Instruction} :
    stage.run (token :: rest) = (emitted, .ok final) ↔
      ∃ first next later, stage.step token = (first, .ok next) ∧
        next.run rest = (later, .ok final) ∧ emitted = first ++ later := by
  rw [run]
  split
  next hstep => simp [hstep]
  next first next hstep =>
    constructor
    · intro hrun
      obtain ⟨rfl, hfinal⟩ := Prod.mk.inj hrun
      exact ⟨first, next, (next.run rest).1, hstep, Prod.ext rfl hfinal, rfl⟩
    · rintro ⟨_, _, later, hother, hlater, rfl⟩
      rw [hstep] at hother
      obtain ⟨rfl, rfl⟩ := mk_ok_inj hother
      rw [hlater]

theorem run_append_eq_ok_iff {stage final : Stage} {first second : List Token}
    {emitted : List Instruction} :
    stage.run (first ++ second) = (emitted, .ok final) ↔
      ∃ earlier middle later, stage.run first = (earlier, .ok middle) ∧
        middle.run second = (later, .ok final) ∧ emitted = earlier ++ later := by
  induction first generalizing stage emitted with
  | nil =>
      constructor
      · intro hrun
        exact ⟨[], stage, emitted, rfl, hrun, rfl⟩
      · rintro ⟨earlier, middle, later, hfirst, hsecond, rfl⟩
        obtain ⟨rfl, rfl⟩ := mk_ok_inj hfirst
        exact hsecond
  | cons token first ih =>
      rw [List.cons_append]
      constructor
      · intro hrun
        obtain ⟨start, next, _, hstep, hrest, rfl⟩ := run_cons_eq_ok_iff.mp hrun
        obtain ⟨earlier, middle, later, hfirst, hsecond, rfl⟩ := ih.mp hrest
        exact ⟨start ++ earlier, middle, later,
          run_cons_eq_ok_iff.mpr ⟨start, next, earlier, hstep, hfirst, rfl⟩, hsecond,
          (List.append_assoc ..).symm⟩
      · rintro ⟨_, middle, later, hfirst, hsecond, rfl⟩
        obtain ⟨start, next, earlier, hstep, hrest, rfl⟩ := run_cons_eq_ok_iff.mp hfirst
        exact run_cons_eq_ok_iff.mpr ⟨start, next, earlier ++ later, hstep,
          ih.mpr ⟨earlier, middle, later, hrest, hsecond, rfl⟩, List.append_assoc ..⟩

/-- What every step keeps up holds after a run: it may tell of the stage, the tokens seen so far
and what they have emitted. -/
theorem run_induction (holds : Stage → List Token → List Instruction → Prop)
    (hkeep : ∀ stage next token seen emitted last, holds stage seen emitted →
      stage.step token = (last, .ok next) → holds next (seen ++ [token]) (emitted ++ last))
    {stage reached : Stage} {seen tokens : List Token} {emitted later : List Instruction}
    (hstart : holds stage seen emitted) (hrun : stage.run tokens = (later, .ok reached)) :
    holds reached (seen ++ tokens) (emitted ++ later) := by
  induction tokens generalizing stage seen emitted later with
  | nil =>
      obtain ⟨rfl, rfl⟩ := mk_ok_inj hrun
      rwa [List.append_nil, List.append_nil]
  | cons token tokens ih =>
      obtain ⟨first, next, rest, hstep, hlater, rfl⟩ := run_cons_eq_ok_iff.mp hrun
      have hreached := ih (hkeep _ _ _ _ _ _ hstart hstep) hlater
      rwa [List.append_assoc, List.append_assoc] at hreached

/-- What holds at the start and is kept up by every step holds wherever a run leads. -/
theorem run_start_induction (holds : Stage → List Token → List Instruction → Prop)
    (hstart : holds .start [] [])
    (hkeep : ∀ stage next token seen emitted last, holds stage seen emitted →
      stage.step token = (last, .ok next) → holds next (seen ++ [token]) (emitted ++ last))
    {reached : Stage} {tokens : List Token} {emitted : List Instruction}
    (hrun : Stage.start.run tokens = (emitted, .ok reached)) : holds reached tokens emitted :=
  run_induction holds hkeep hstart hrun

theorem run_complete_cons_ne_ok {target : String} {token : Token} {rest : List Token}
    {emitted : List Instruction} {final : Stage} :
    (Stage.complete target).run (token :: rest) ≠ (emitted, .ok final) := by
  simp [run, step]

theorem kind_ne_finish_of_run {stage final : Stage} {tokens : List Token}
    {emitted : List Instruction} (hrun : stage.run tokens = (emitted, .ok final)) :
    ∀ token ∈ tokens, token.kind ≠ .finish := by
  induction tokens generalizing stage emitted with
  | nil => simp
  | cons token rest ih =>
      obtain ⟨first, next, later, hstep, hlater, _⟩ := run_cons_eq_ok_iff.mp hrun
      exact List.forall_mem_cons.mpr ⟨kind_ne_finish_of_step hstep, ih hlater⟩

end Stage

/-! ## What happened in a reading -/

theorem instructions_of_emitted (emitted : List Instruction) :
    (emitted.map Event.emitted).filterMap Event.instruction? = emitted := by
  rw [List.filterMap_map]
  exact List.filterMap_some

theorem tokens_of_emitted (emitted : List Instruction) :
    (emitted.map Event.emitted).filterMap Event.token? = [] := by
  rw [List.filterMap_map, List.filterMap_eq_nil_iff]
  exact fun _ _ => rfl

/-- Before the first draw of a reading no token has been drawn. -/
@[simp]
theorem tokens_mk_emitted (emitted : List Instruction) (scanner : Scanner) (current : Token)
    (fault : Option Fault) :
    Reading.tokens ⟨emitted.map .emitted, scanner, current, fault⟩ = [] :=
  tokens_of_emitted emitted

@[simp]
theorem instructions_mk_emitted (emitted : List Instruction) (scanner : Scanner) (current : Token)
    (fault : Option Fault) :
    Reading.instructions ⟨emitted.map .emitted, scanner, current, fault⟩ = emitted :=
  instructions_of_emitted emitted

theorem views_completed (emitted : List Instruction) (token : Token) (target : String)
    (scanner : Scanner) (current : Token) (fault : Option Fault) :
    Reading.instructions ⟨emitted.map .emitted ++ [.drawn token, .completed target], scanner,
        current, fault⟩ = emitted ∧
      Reading.tokens ⟨emitted.map .emitted ++ [.drawn token, .completed target], scanner,
        current, fault⟩ = [token] := by
  simp only [Reading.instructions, Reading.tokens, List.filterMap_append, instructions_of_emitted,
    tokens_of_emitted]
  simp [Event.instruction?, Event.token?]

theorem views_after (reading : Reading) (emitted : List Instruction) (token : Token) :
    (reading.after (emitted.map .emitted ++ [.drawn token])).instructions =
        emitted ++ reading.instructions ∧
      (reading.after (emitted.map .emitted ++ [.drawn token])).tokens =
        token :: reading.tokens := by
  simp only [Reading.instructions, Reading.tokens, Reading.after, List.filterMap_append,
    instructions_of_emitted, tokens_of_emitted]
  simp [Event.instruction?, Event.token?]

/-- The ways in which a reading ends that starts in a stage with a token in hand. -/
inductive Outcome (stage : Stage) (scanner : Scanner) (current : Token) (reading : Reading) :
    Prop where
  /-- The tokens are a statement, and the one after them has been drawn. -/
  | completed (tokens : List Token) (last : Token) (target : String)
      (hrun : stage.run (current :: tokens) = (reading.instructions, .ok (.complete target)))
      (hdraws : scanner.Draws (tokens ++ [last]) reading.scanner)
      (htokens : reading.tokens = tokens ++ [last]) (hcurrent : reading.current = last)
      (hfault : reading.fault = none)
  /-- The last token drawn is of no use after the ones before it. -/
  | refused (before : List Token) (reached : Stage) (needed : Expectation)
      (emitted last : List Instruction)
      (hbefore : stage.run before = (emitted, .ok reached))
      (hlast : reached.step reading.current = (last, .error needed))
      (htokens : current :: reading.tokens = before ++ [reading.current])
      (hinstructions : reading.instructions = emitted ++ last)
      (hdraws : scanner.Draws reading.tokens reading.scanner)
      (hfault : reading.fault =
        some (.diagnostic (unexpected scanner.source reading.current needed)))
  /-- All tokens drawn were of use and the draw of another one failed. -/
  | failed (reached : Stage) (middle : Scanner) (fault : Fault)
      (hrun : stage.run (current :: reading.tokens) = (reading.instructions, .ok reached))
      (hdraws : scanner.Draws reading.tokens middle)
      (hdraw : middle.next = (reading.scanner, .error fault))
      (hcurrent : (current :: reading.tokens).getLast? = some reading.current)
      (hfault : reading.fault = some fault)

/-- A token of use and a draw in front of a reading change nothing about how it ends. -/
theorem Outcome.after {stage next : Stage} {scanner later : Scanner} {current token : Token}
    {emitted : List Instruction} {reading : Reading}
    (hstep : stage.step current = (emitted, .ok next)) (hdraw : scanner.next = (later, .ok token))
    (outcome : Outcome next later token reading) :
    Outcome stage scanner current
      (reading.after (emitted.map .emitted ++ [.drawn token])) := by
  obtain ⟨hinstructions, htokens⟩ := views_after reading emitted token
  cases outcome with
  | completed tokens last target hrun hdraws hlast hcurrent hfault =>
      refine .completed (token :: tokens) last target ?_ (.cons hdraw hdraws) ?_ hcurrent hfault
      · rw [hinstructions, Stage.run_cons_of_ok hstep, hrun]
      · rw [htokens, hlast, List.cons_append]
  | refused before reached needed first last hbefore hlast hsame hall hdraws hfault =>
      refine .refused (current :: before) reached needed (emitted ++ first) last
        ?_ hlast ?_ ?_ ?_ ?_
      · rw [Stage.run_cons_of_ok hstep, hbefore]
      · rw [htokens, hsame]
        rfl
      · rw [hinstructions, hall, List.append_assoc]
      · rw [htokens]
        exact .cons hdraw hdraws
      · rw [← (Scanner.source_of_next hdraw).1]
        exact hfault
  | failed reached middle fault hrun hdraws hfailed hcurrent hfault =>
      refine .failed reached middle fault ?_ ?_ hfailed ?_ hfault
      · rw [htokens, hinstructions, Stage.run_cons_of_ok hstep, hrun]
      · rw [htokens]
        exact .cons hdraw hdraws
      · rw [htokens, List.getLast?_cons_cons]
        exact hcurrent

/-- Every reading ends in one of the three ways. -/
theorem readFrom_outcome (stage : Stage) (scanner : Scanner) (current : Token) :
    Outcome stage scanner current (readFrom stage scanner current) := by
  fun_induction readFrom stage scanner current with
  | case1 stage scanner current emitted needed hstep =>
      refine .refused [] stage needed [] emitted rfl hstep ?_ ?_ ?_ rfl
      · rw [tokens_mk_emitted, List.nil_append]
      · rw [instructions_mk_emitted, List.nil_append]
      · rw [tokens_mk_emitted]
        exact .nil scanner
  | case2 stage scanner current emitted next hstep after fault hdraw =>
      refine .failed next scanner fault ?_ ?_ hdraw ?_ rfl
      · rw [tokens_mk_emitted, instructions_mk_emitted, Stage.run_singleton, hstep]
      · rw [tokens_mk_emitted]
        exact .nil scanner
      · rw [tokens_mk_emitted, List.getLast?_singleton]
  | case3 stage scanner current emitted after token hdraw target hstep =>
      obtain ⟨hinstructions, htokens⟩ := views_completed emitted token target after token none
      refine .completed [] token target ?_ (.cons hdraw (.nil after)) htokens rfl rfl
      rw [Stage.run_singleton, hstep, hinstructions]
  | case4 stage scanner current emitted after token hdraw next hstep _ _ _ ih =>
      exact ih.after hstep hdraw

theorem readFrom_of_refused {stage : Stage} {current : Token} {emitted : List Instruction}
    {needed : Expectation} (hstep : stage.step current = (emitted, .error needed))
    (scanner : Scanner) :
    readFrom stage scanner current = ⟨emitted.map .emitted, scanner, current,
      some (.diagnostic (unexpected scanner.source current needed))⟩ := by
  rw [readFrom]
  split
  next hother =>
    rw [hstep] at hother
    obtain ⟨rfl, hneeded⟩ := Prod.mk.inj hother
    obtain rfl := Except.error.inj hneeded
    rfl
  next hother =>
    rw [hstep] at hother
    cases (Prod.mk.inj hother).2

/-- After a token of use the reading goes by the next draw. -/
theorem readFrom_of_step {stage next : Stage} {current : Token} {emitted : List Instruction}
    (hstep : stage.step current = (emitted, .ok next)) (scanner : Scanner) :
    readFrom stage scanner current =
      match scanner.next with
      | (after, .error fault) => ⟨emitted.map .emitted, after, current, some fault⟩
      | (after, .ok token) =>
          match next with
          | .complete target =>
              ⟨emitted.map .emitted ++ [.drawn token, .completed target], after, token, none⟩
          | next => (readFrom next after token).after (emitted.map .emitted ++ [.drawn token]) := by
  rw [readFrom]
  split
  next hother =>
    rw [hstep] at hother
    cases (Prod.mk.inj hother).2
  next hother =>
    rw [hstep] at hother
    obtain ⟨rfl, rfl⟩ := mk_ok_inj hother
    split
    next hfailed => rw [hfailed]
    next hdrawn =>
      cases next <;> simp only [hdrawn]

theorem readFrom_of_failed {stage next : Stage} {scanner after : Scanner} {current : Token}
    {emitted : List Instruction} {fault : Fault} (hstep : stage.step current = (emitted, .ok next))
    (hdraw : scanner.next = (after, .error fault)) :
    readFrom stage scanner current = ⟨emitted.map .emitted, after, current, some fault⟩ := by
  rw [readFrom_of_step hstep, hdraw]

theorem readFrom_of_complete {stage : Stage} {scanner after : Scanner} {current token : Token}
    {emitted : List Instruction} {target : String}
    (hstep : stage.step current = (emitted, .ok (.complete target)))
    (hdraw : scanner.next = (after, .ok token)) :
    readFrom stage scanner current =
      ⟨emitted.map .emitted ++ [.drawn token, .completed target], after, token, none⟩ := by
  rw [readFrom_of_step hstep, hdraw]

theorem readFrom_of_open {stage next : Stage} {scanner after : Scanner} {current token : Token}
    {emitted : List Instruction} (hstep : stage.step current = (emitted, .ok next))
    (hdraw : scanner.next = (after, .ok token)) (hopen : ∀ target, next ≠ .complete target) :
    readFrom stage scanner current =
      (readFrom next after token).after (emitted.map .emitted ++ [.drawn token]) := by
  rw [readFrom_of_step hstep, hdraw]
  cases next with
  | complete target => exact absurd rfl (hopen target)
  | _ => rfl

/-- Tokens that complete a statement are read as one if one more token can be drawn. -/
theorem readFrom_of_run {stage : Stage} {scanner after : Scanner} {current last : Token}
    {tokens : List Token} {emitted : List Instruction} {target : String}
    (hrun : stage.run (current :: tokens) = (emitted, .ok (.complete target)))
    (hdraws : scanner.Draws (tokens ++ [last]) after) :
    (readFrom stage scanner current).fault = none ∧
      (readFrom stage scanner current).instructions = emitted ∧
      (readFrom stage scanner current).tokens = tokens ++ [last] := by
  induction tokens generalizing stage scanner current emitted with
  | nil =>
      rw [Stage.run_singleton] at hrun
      cases hdraws with
      | cons hdraw hlater =>
          rw [readFrom_of_complete hrun hdraw]
          exact ⟨rfl, views_completed emitted _ target _ _ _⟩
  | cons token tokens ih =>
      obtain ⟨first, next, later, hstep, hlater, rfl⟩ := Stage.run_cons_eq_ok_iff.mp hrun
      cases hdraws with
      | cons hdraw hdraws =>
          obtain ⟨hfault, hinstructions, htokens⟩ := ih hlater hdraws
          -- a complete statement would have left no token for the rest of the run
          have hopen (name : String) : next ≠ .complete name := by
            rintro rfl
            exact Stage.run_complete_cons_ne_ok hlater
          rw [readFrom_of_open hstep hdraw hopen]
          obtain ⟨hemitted, hdrawn⟩ := views_after (readFrom next _ token) first token
          exact ⟨hfault, by rw [hemitted, hinstructions], by rw [hdrawn, htokens]; rfl⟩

/-- The token in hand after a reading is the last one drawn, or the one that it started with. -/
theorem getLast?_readFrom (stage : Stage) (scanner : Scanner) (current : Token) :
    (current :: (readFrom stage scanner current).tokens).getLast? =
      some (readFrom stage scanner current).current := by
  cases readFrom_outcome stage scanner current with
  | completed tokens last target _ _ htokens hcurrent _ =>
      rw [htokens, hcurrent, ← List.cons_append, List.getLast?_concat]
  | refused before _ _ _ _ _ _ htokens _ _ _ => rw [htokens, List.getLast?_concat]
  | failed _ _ _ _ _ _ hcurrent _ => exact hcurrent

theorem source_readFrom (stage : Stage) (scanner : Scanner) (current : Token) :
    (readFrom stage scanner current).scanner.source = scanner.source := by
  cases readFrom_outcome stage scanner current with
  | completed _ _ _ _ hdraws _ _ _ => exact hdraws.source_eq
  | refused _ _ _ _ _ _ _ _ _ hdraws _ => exact hdraws.source_eq
  | failed _ _ _ _ hdraws hdraw _ _ =>
      exact (Scanner.source_of_next hdraw).1.trans hdraws.source_eq

/-- A reading that completes a statement leaves the scanner behind the token in hand. -/
theorem readFrom_place_of_run {stage : Stage} {scanner after : Scanner} {current last : Token}
    {tokens : List Token} {emitted : List Instruction} {target : String}
    (hrun : stage.run (current :: tokens) = (emitted, .ok (.complete target)))
    (hdraws : scanner.Draws (tokens ++ [last]) after) :
    (readFrom stage scanner current).scanner = after ∧
      (readFrom stage scanner current).current = last := by
  obtain ⟨hfault, _, htokens⟩ := readFrom_of_run hrun hdraws
  have hlast := getLast?_readFrom stage scanner current
  rw [htokens, ← List.cons_append, List.getLast?_concat] at hlast
  refine ⟨?_, (Option.some.inj hlast).symm⟩
  cases readFrom_outcome stage scanner current with
  | completed read other _ _ hread hsame _ _ =>
      rw [← hsame, htokens] at hread
      exact hread.unique hdraws
  | refused _ _ _ _ _ _ _ _ _ _ hother => cases hfault.symm.trans hother
  | failed _ _ _ _ _ _ _ hother => cases hfault.symm.trans hother

end LetLang.Statement
