import LetLang.Session.Basic
import LetLang.Proofs.Image
import LetLang.Proofs.Prefixes
import LetLang.Proofs.Verdicts

/-!
# What a failed reading leaves

Instructions are emitted while tokens are read, so a reading that fails has written some of them.
Which ones is known from the tokens that were of use and from the way it failed: an operand is
pushed before the next token is drawn, an operator is applied after the one that follows its right
operand, and the result is popped before the semicolon is looked at. In all cases they are the
first instructions of a statement, so a machine can carry them out.
-/

namespace LetLang

namespace Statement

/-- The key of an operator. -/
def operatorKey (operator : Operator) : Kind × String :=
  (.mark (markOf operator), latinText [(markOf operator).byte])

/-- The tokens of a statement up to its equals sign. -/
def heading (target : String) : List (Kind × String) :=
  [(.keyword .let, Keyword.let.word), (.identifier, target),
    (.mark .equals, latinText [Mark.equals.byte])]

/-- The instructions of a statement but the last one, which stores the result. -/
def computation (statement : Statement) : List Instruction :=
  .push statement.first :: statement.rest.flatMap linkInstructions

/-- The operator before the last operand, if that is not the only one. -/
def lastOperator (statement : Statement) : Option Operator :=
  statement.rest.getLast?.map Prod.fst

/-- A statement with one more link. -/
def extend (statement : Statement) (link : Operator × String) : Statement :=
  { statement with rest := statement.rest ++ [link] }

theorem instructions_eq_computation (statement : Statement) :
    statement.instructions = statement.computation ++ [.pop statement.target] := rfl

@[simp]
theorem target_extend (statement : Statement) (link : Operator × String) :
    (statement.extend link).target = statement.target := rfl

@[simp]
theorem openTokens_extend (statement : Statement) (link : Operator × String) :
    (statement.extend link).openTokens = statement.openTokens ++ linkTokens link := by
  simp [extend, openTokens]

@[simp]
theorem computation_extend (statement : Statement) (link : Operator × String) :
    (statement.extend link).computation = statement.computation ++ linkInstructions link := by
  simp [extend, computation]

@[simp]
theorem lastOperator_extend (statement : Statement) (link : Operator × String) :
    (statement.extend link).lastOperator = some link.1 := by
  simp [extend, lastOperator]

namespace Stage

/-! ## What has led to a stage -/

/-- Whether tokens of these keys lead to a stage and have emitted these instructions by then. -/
def Led : Stage → List (Kind × String) → List Instruction → Prop
  | .start, keys, emitted => keys = [] ∧ emitted = []
  | .target, keys, emitted => keys = [(.keyword .let, Keyword.let.word)] ∧ emitted = []
  | .equals name, keys, emitted =>
      keys = [(.keyword .let, Keyword.let.word), (.identifier, name)] ∧ emitted = []
  | .operand name none, keys, emitted => keys = heading name ∧ emitted = []
  | .operand name (some operator), keys, emitted =>
      ∃ statement : Statement, statement.target = name ∧
        keys = statement.openTokens ++ [operatorKey operator] ∧ emitted = statement.computation
  | .chain name pending, keys, emitted =>
      ∃ statement : Statement, statement.target = name ∧ statement.lastOperator = pending ∧
        keys = statement.openTokens ∧ emitted ++ applied pending = statement.computation
  | .complete name, keys, emitted =>
      ∃ statement : Statement, statement.target = name ∧ keys = statement.tokens ∧
        emitted = statement.instructions

theorem Led.concat {stage next : Stage} {token : Token} {keys : List (Kind × String)}
    {emitted last : List Instruction} (hled : stage.Led keys emitted)
    (hfaithful : token.Faithful) (hstep : stage.step token = (last, .ok next)) :
    next.Led (keys ++ [token.key]) (emitted ++ last) := by
  cases stage with
  | start =>
      obtain ⟨hkind, rfl, rfl⟩ := of_step_start hstep
      obtain ⟨rfl, rfl⟩ := hled
      have htext : token.text = Keyword.let.word := by
        simpa [Token.Faithful, hkind] using hfaithful
      simp [Led, Token.key, hkind, htext]
  | target =>
      obtain ⟨hkind, rfl, rfl⟩ := of_step_target hstep
      obtain ⟨rfl, rfl⟩ := hled
      simp [Led, Token.key, hkind]
  | equals name =>
      obtain ⟨hkind, rfl, rfl⟩ := of_step_equals hstep
      obtain ⟨rfl, rfl⟩ := hled
      simp [Led, heading, key_of_mark hfaithful hkind]
  | operand name pending =>
      obtain ⟨hkind, rfl, rfl⟩ := of_step_operand hstep
      have hkey := key_of_operand hfaithful hkind
      cases pending with
      | none =>
          obtain ⟨rfl, rfl⟩ := hled
          exact ⟨⟨name, token.text, []⟩, rfl, rfl, by rw [hkey]; rfl, rfl⟩
      | some operator =>
          obtain ⟨statement, rfl, rfl, rfl⟩ := hled
          refine ⟨statement.extend (operator, token.text), rfl, by simp, ?_, ?_⟩
          · simp [hkey, linkTokens, operatorKey]
          · simp [linkInstructions, applied]
  | chain name pending =>
      obtain ⟨statement, rfl, rfl, rfl, hemitted⟩ := hled
      rcases step_chain_cases hstep with ⟨operator, hkind, rfl, rfl⟩ | ⟨hkind, rfl, rfl⟩
      · refine ⟨statement, rfl, ?_, hemitted⟩
        rw [key_of_mark hfaithful hkind, operatorKey]
      · refine ⟨statement, rfl, ?_, ?_⟩
        · rw [key_of_mark hfaithful hkind]
          rfl
        · rw [← List.append_assoc, hemitted]
          rfl
  | complete name => cases (Prod.mk.inj hstep).2

/-- The tokens of a run from the start lead to the stage that it reaches. -/
theorem led_of_run {tokens : List Token} {reached : Stage} {emitted : List Instruction}
    (hfaithful : ∀ token ∈ tokens, token.Faithful)
    (hrun : Stage.start.run tokens = (emitted, .ok reached)) :
    reached.Led (tokens.map Token.key) emitted := by
  refine run_start_induction (fun stage seen emitted => (∀ token ∈ seen, token.Faithful) →
    stage.Led (seen.map Token.key) emitted) (fun _ => ⟨rfl, rfl⟩) ?_ hrun hfaithful
  intro stage next token seen emitted last hled hstep hall
  obtain ⟨hseen, htoken⟩ := List.forall_mem_append.mp hall
  rw [List.map_append]
  exact (hled hseen).concat (htoken token List.mem_cons_self) hstep

end Stage

/-! ## Failures and what they leave -/

/-- How a reading can fail: at a token that is of no use, or at the draw of a token. -/
inductive Failure where
  | refusal
  | draw
  deriving DecidableEq, Repr

/-- The instructions that are left when a reading fails after tokens of use. -/
inductive Remains : Failure → List (Kind × String) → List Instruction → Prop where
  /-- Nothing is left by tokens up to the equals sign. -/
  | heading {failure : Failure} {keys : List (Kind × String)} (target : String)
      (hkeys : keys <+: heading target) : Remains failure keys []
  /-- After an operator all operands have been pushed and the operators before it applied. -/
  | operator {failure : Failure} (statement : Statement) (operator : Operator) :
      Remains failure (statement.openTokens ++ [operatorKey operator]) statement.computation
  /-- A failed draw after an operand keeps the operator before it from being applied. -/
  | operand (statement : Statement) (left : List Instruction)
      (hleft : left ++ Stage.applied statement.lastOperator = statement.computation) :
      Remains .draw statement.openTokens left
  /-- A token of no use after an operand is refused when everything has been emitted. -/
  | unclosed (statement : Statement) : Remains .refusal statement.openTokens statement.instructions
  | complete (statement : Statement) : Remains .draw statement.tokens statement.instructions

/-! ## Only one remainder -/

theorem linkTokens_injective : Function.Injective linkTokens := by
  rintro ⟨operator, operand⟩ ⟨other, text⟩ heq
  simp only [linkTokens, List.cons.injEq, Prod.mk.injEq, Kind.mark.injEq] at heq
  obtain ⟨⟨hmark, _⟩, ⟨_, rfl⟩, _⟩ := heq
  cases operator <;> cases other <;> simp_all [markOf]

theorem openTokens_injective : Function.Injective openTokens := by
  rintro ⟨target, first, rest⟩ ⟨other, operand, links⟩ heq
  simp only [openTokens, List.cons_append, List.nil_append, List.cons.injEq, Prod.mk.injEq] at heq
  obtain ⟨_, ⟨_, rfl⟩, _, ⟨_, rfl⟩, hlinks⟩ := heq
  rw [flatMap_injective (fun _ => rfl) linkTokens_injective hlinks]

theorem length_openTokens (statement : Statement) :
    statement.openTokens.length = 4 + 2 * statement.rest.length := by
  have hlinks : (statement.rest.flatMap linkTokens).length = statement.rest.length * 2 := by
    simp [List.length_flatMap, linkTokens]
  rw [openTokens, List.length_append, hlinks, Nat.mul_comm]
  rfl

/-- A statement has an even number of tokens before its semicolon, so at most one more token can
be told from them. -/
theorem openTokens_append_inj {first second : Statement} {left right : List (Kind × String)}
    (hleft : left.length ≤ 1) (hright : right.length ≤ 1)
    (heq : first.openTokens ++ left = second.openTokens ++ right) :
    first = second ∧ left = right := by
  have hlength := congrArg List.length heq
  rw [List.length_append, List.length_append, length_openTokens, length_openTokens] at hlength
  obtain ⟨hstatements, htokens⟩ := List.append_inj' heq (by omega)
  exact ⟨openTokens_injective hstatements, htokens⟩

/-- What is left after the tokens of a statement but its semicolon, and at most one more. -/
def leftAfter (statement : Statement) (failure : Failure) (tail : List (Kind × String)) :
    List Instruction :=
  match failure, tail with
  | .draw, [] =>
      statement.computation.take
        (statement.computation.length - (Stage.applied statement.lastOperator).length)
  | .refusal, [] => statement.instructions
  | _, key :: _ => if key = semicolonKey then statement.instructions else statement.computation

theorem Remains.cases_tail {failure : Failure} {keys : List (Kind × String)}
    {left : List Instruction} (hremains : Remains failure keys left) :
    (keys.length < 4 ∧ left = []) ∨
      ∃ (statement : Statement) (tail : List (Kind × String)), tail.length ≤ 1 ∧
        keys = statement.openTokens ++ tail ∧ left = statement.leftAfter failure tail := by
  cases hremains with
  | heading target hkeys => exact Or.inl ⟨Nat.lt_succ_of_le hkeys.length_le, rfl⟩
  | operator statement operator =>
      have hother : operatorKey operator ≠ semicolonKey := by
        cases operator <;> decide
      refine Or.inr ⟨statement, [operatorKey operator], le_rfl, rfl, ?_⟩
      rw [leftAfter, if_neg hother]
  | operand statement left hleft =>
      refine Or.inr ⟨statement, [], by simp, (List.append_nil _).symm, ?_⟩
      simp [leftAfter, ← hleft]
  | unclosed statement =>
      exact Or.inr ⟨statement, [], by simp, (List.append_nil _).symm, rfl⟩
  | complete statement => exact Or.inr ⟨statement, [semicolonKey], le_rfl, rfl, rfl⟩

/-- The tokens of use and the way of the failure determine what is left. -/
theorem Remains.unique {failure : Failure} {keys : List (Kind × String)}
    {left other : List Instruction} (hleft : Remains failure keys left)
    (hother : Remains failure keys other) : left = other := by
  have hlong (statement : Statement) (tail : List (Kind × String)) :
      4 ≤ (statement.openTokens ++ tail).length := by
    rw [List.length_append, length_openTokens]
    omega
  rcases hleft.cases_tail with ⟨hshort, rfl⟩ | ⟨statement, tail, htail, rfl, rfl⟩
  · rcases hother.cases_tail with ⟨_, rfl⟩ | ⟨another, after, _, rfl, _⟩
    · rfl
    · exact absurd hshort (Nat.not_lt.mpr (hlong another after))
  · rcases hother.cases_tail with ⟨hshort, _⟩ | ⟨another, after, hafter, hkeys, rfl⟩
    · exact absurd hshort (Nat.not_lt.mpr (hlong statement tail))
    · obtain ⟨rfl, rfl⟩ := openTokens_append_inj htail hafter hkeys
      rfl

namespace Stage

/-- Up to an operand, what is left does not depend on the way of the failure. -/
theorem Led.remains {reached : Stage} {keys : List (Kind × String)} {emitted : List Instruction}
    (hled : reached.Led keys emitted) (hchain : ∀ name pending, reached ≠ .chain name pending)
    (hopen : ∀ target, reached ≠ .complete target) (failure : Failure) :
    Remains failure keys emitted := by
  cases reached with
  | start =>
      obtain ⟨rfl, rfl⟩ := hled
      exact .heading "" List.nil_prefix
  | target =>
      obtain ⟨rfl, rfl⟩ := hled
      exact .heading "" ⟨_, rfl⟩
  | equals name =>
      obtain ⟨rfl, rfl⟩ := hled
      exact .heading name ⟨_, rfl⟩
  | operand name pending =>
      cases pending with
      | none =>
          obtain ⟨rfl, rfl⟩ := hled
          exact .heading name List.prefix_rfl
      | some operator =>
          obtain ⟨statement, rfl, rfl, rfl⟩ := hled
          exact .operator statement operator
  | chain name pending => exact absurd rfl (hchain name pending)
  | complete name => exact absurd rfl (hopen name)

theorem Led.remains_of_refusal {reached : Stage} {token : Token} {keys : List (Kind × String)}
    {emitted last : List Instruction} {needed : Expectation} (hled : reached.Led keys emitted)
    (hopen : ∀ target, reached ≠ .complete target)
    (hstep : reached.step token = (last, .error needed)) :
    Remains .refusal keys (emitted ++ last) := by
  rcases step_error_cases hstep with ⟨rfl, _, rfl, _⟩ | ⟨rfl, _, rfl, _⟩ | ⟨name, rfl, _, rfl, _⟩ |
    ⟨name, pending, rfl, _, rfl, _⟩ | ⟨name, pending, rfl, _, _, rfl, _⟩ | ⟨target, rfl⟩
  iterate 4
    · rw [List.append_nil]
      exact hled.remains (by simp) hopen .refusal
  · obtain ⟨statement, rfl, rfl, rfl, hemitted⟩ := hled
    rw [← List.append_assoc, hemitted]
    exact .unclosed statement
  · exact absurd rfl (hopen target)

theorem Led.remains_of_draw {reached : Stage} {keys : List (Kind × String)}
    {emitted : List Instruction} (hled : reached.Led keys emitted) :
    Remains .draw keys emitted := by
  cases reached with
  | chain name pending =>
      obtain ⟨statement, rfl, rfl, rfl, hemitted⟩ := hled
      exact .operand statement emitted hemitted
  | complete name =>
      obtain ⟨statement, rfl, rfl, rfl⟩ := hled
      exact .complete statement
  | _ => exact hled.remains (by simp) (by simp) .draw

end Stage

/-- How the reading of a statement from the start of a source fails after tokens of use. -/
inductive Fails (source : Source) (encoding : Decoder) (accepted : List Token) (fault : Fault) :
    Failure → Prop where
  | refusal (wrong : Token) (after : Scanner) (needed : Expectation)
      (hdraws : (Scanner.ofSource source encoding).Draws (accepted ++ [wrong]) after)
      (hbreaks : Grammar.BreaksAt ((accepted ++ [wrong]).map Token.kind) accepted.length)
      (hfault : fault = .diagnostic (unexpected source wrong needed)) :
      Fails source encoding accepted fault .refusal
  | draw (middle after : Scanner)
      (hdraws : (Scanner.ofSource source encoding).Draws accepted middle)
      (hviable : Grammar.Viable (accepted.map Token.kind))
      (hdraw : middle.next = (after, .error fault)) : Fails source encoding accepted fault .draw

theorem Fails.exists_draws {source : Source} {encoding : Decoder} {accepted : List Token}
    {fault : Fault} {failure : Failure} (hfails : Fails source encoding accepted fault failure) :
    ∃ middle, (Scanner.ofSource source encoding).Draws accepted middle := by
  cases hfails with
  | refusal wrong after needed hdraws _ _ =>
      obtain ⟨middle, haccepted, _⟩ := Scanner.Draws.concat_iff.mp hdraws
      exact ⟨middle, haccepted⟩
  | draw middle after hdraws _ _ => exact ⟨middle, hdraws⟩

/-- A reading that fails leaves what remains of the tokens that were of use. -/
theorem exists_remains_of_read {source : Source} {encoding : Decoder} {scanner : Scanner}
    {first : Token} {fault : Fault}
    (hfresh : (Scanner.ofSource source encoding).next = (scanner, .ok first))
    (hfault : (read scanner first).fault = some fault) :
    ∃ accepted failure, Fails source encoding accepted fault failure ∧
      Remains failure (accepted.map Token.key) (read scanner first).instructions := by
  cases readFrom_outcome .start scanner first with
  | completed _ _ _ _ _ _ _ hnone => cases hfault.symm.trans hnone
  | refused before reached needed emitted last hbefore hlast htokens hemitted hdraws hreport =>
      have hopen := ne_complete_of_fault hbefore htokens hdraws (by simp [hfault])
      have hall := Scanner.Draws.cons hfresh hdraws
      rw [htokens] at hall
      have hfaithful : ∀ token ∈ before, token.Faithful := fun token htoken =>
        hall.faithful token (List.mem_append_left _ htoken)
      obtain rfl := Option.some.inj (hfault.symm.trans hreport)
      rw [(Scanner.source_of_next hfresh).1]
      refine ⟨before, .refusal, .refusal _ _ needed hall ?_ rfl, ?_⟩
      · exact Grammar.breaksAt_length hbefore hopen hlast []
      · rw [read, hemitted]
        exact (Stage.led_of_run hfaithful hbefore).remains_of_refusal hopen hlast
  | failed reached middle cause hrun hdraws hdraw _ hreport =>
      have hall := Scanner.Draws.cons hfresh hdraws
      obtain rfl := Option.some.inj (hfault.symm.trans hreport)
      exact ⟨_, .draw, .draw middle _ hall (Grammar.viable_iff.mpr ⟨_, _, hrun⟩) hdraw,
        (Stage.led_of_run hall.faithful hrun).remains_of_draw⟩

/-- What is left are the first instructions of a well-formed statement. -/
theorem Remains.exists_statement {failure : Failure} {tokens : List Token}
    {left : List Instruction} {scanner middle : Scanner}
    (hremains : Remains failure (tokens.map Token.key) left)
    (hdraws : scanner.Draws tokens middle) :
    ∃ statement : Statement, statement.WellFormed ∧ left <+: statement.instructions := by
  generalize hkeys : tokens.map Token.key = keys at hremains
  cases hremains with
  | heading target _ =>
      have hname : IsName "x" := ⟨[0x78], by decide, rfl, fun reserved => by
        cases reserved <;> decide⟩
      exact ⟨⟨"x", "x", []⟩, ⟨hname, Or.inr hname, by simp⟩, List.nil_prefix⟩
  | operator statement operator =>
      exact ⟨statement, wellFormed_of_draws hdraws ⟨_, hkeys.symm⟩, List.prefix_append _ _⟩
  | operand statement left hleft =>
      refine ⟨statement, wellFormed_of_draws hdraws (hkeys ▸ List.prefix_rfl), ?_⟩
      rw [instructions_eq_computation, ← hleft, List.append_assoc]
      exact List.prefix_append _ _
  | unclosed statement =>
      exact ⟨statement, wellFormed_of_draws hdraws (hkeys ▸ List.prefix_rfl), List.prefix_rfl⟩
  | complete statement =>
      exact ⟨statement, wellFormed_of_draws hdraws ⟨_, hkeys.symm⟩, List.prefix_rfl⟩

/-- The first instructions of a statement can be carried out and leave the values below. -/
theorem exists_runLines_of_front {statement : Statement} {left : List Instruction}
    (hleft : left <+: statement.instructions) (stack : List Int) (store : Store) :
    ∃ above later, Machine.runLines ⟨stack, store⟩ (left.map Instruction.line) =
      some ⟨above ++ stack, later⟩ := by
  obtain ⟨⟨above, later⟩, hrun, _⟩ := (statement.bounded_instructions store).run_initial hleft
  refine ⟨above, later, ?_⟩
  rw [Machine.runLines_map_line]
  exact Machine.run_stack_append hrun stack

end Statement

/-! ## Sinks -/

/-- A sink with lines after all that it has taken. -/
def Sink.followedBy (sink : Sink) (lines : List String) : Sink :=
  match sink with
  | .list taken => .list (taken ++ lines)
  | .stream written => .stream (written ++ textOfLines lines)

@[simp]
theorem Sink.followedBy_nil (sink : Sink) : sink.followedBy [] = sink := by
  cases sink <;> simp [followedBy, textOfLines]

@[simp]
theorem Sink.followedBy_followedBy (sink : Sink) (first second : List String) :
    (sink.followedBy first).followedBy second = sink.followedBy (first ++ second) := by
  cases sink <;> simp [followedBy, textOfLines, String.append_assoc]

theorem Sink.emitAll_eq (sink : Sink) (lines : List String) :
    sink.emitAll lines = sink.followedBy lines := by
  induction lines generalizing sink with
  | nil => simp [emitAll]
  | cons line lines ih =>
      have hrest : sink.emitAll (line :: lines) = (sink.emit line).emitAll lines := rfl
      rw [hrest, ih]
      cases sink <;> simp [emit, followedBy, textOfLines, String.append_assoc]

theorem Session.read_of_objects {session : Session} {parser : Parser} {tape : Tape} {sink : Sink}
    (hscanner : session.scanners[parser.scanner]? = some tape)
    (hsink : session.sinks[parser.sink]? = some sink) (number : Nat) :
    (session.read number parser).2 = (Statement.read tape.scanner parser.current).fault ∧
      (session.read number parser).1.sinks[parser.sink]? =
        some (sink.followedBy (Statement.read tape.scanner parser.current).lines) := by
  obtain ⟨hnumber, _⟩ := List.getElem?_eq_some_iff.mp hsink
  rw [read, hscanner, hsink, ← sink.emitAll_eq]
  exact ⟨rfl, List.getElem?_set_self hnumber⟩

open Statement in
/-- **What a failed reading leaves is known and can be carried out.** A parser that has drawn its
first token from a source, under any name of an encoding, and fails to read a statement has
written after all that its sink held what remains of the tokens that were of use. These are the
first lines of a source that is accepted, and no machine lacks a value for them. -/
theorem Session.read_leaves {session : Session} {number : Nat} {parser : Parser} {tape : Tape}
    {sink : Sink} {source : Source} {encoding : Decoder} {fault : Fault}
    (hscanner : session.scanners[parser.scanner]? = some tape)
    (hsink : session.sinks[parser.sink]? = some sink)
    (hfresh : (Scanner.ofSource source encoding).next = (tape.scanner, .ok parser.current))
    (hfault : (session.read number parser).2 = some fault) :
    ∃ accepted failure left, Fails source encoding accepted fault failure ∧
      Remains failure (accepted.map Token.key) left ∧
      (∀ other, Remains failure (accepted.map Token.key) other → other = left) ∧
      (session.read number parser).1.sinks[parser.sink]? =
        some (sink.followedBy (left.map Instruction.line)) ∧
      (∃ other result, (compile .standard other).outcome = .ok result ∧
        left.map Instruction.line <+: result.instructions) ∧
      ∀ (stack : List Int) (store : Store), ∃ above later,
        Machine.runLines ⟨stack, store⟩ (left.map Instruction.line) =
          some ⟨above ++ stack, later⟩ := by
  obtain ⟨houtcome, htaken⟩ := read_of_objects hscanner hsink number
  rw [houtcome] at hfault
  obtain ⟨accepted, failure, hfails, hremains⟩ := exists_remains_of_read hfresh hfault
  obtain ⟨middle, hdraws⟩ := hfails.exists_draws
  obtain ⟨statement, hstatement, hfront⟩ := hremains.exists_statement hdraws
  have hcodec : Encoding.find Options.standard.encoding.name = .ok .utf8 := rfl
  obtain ⟨other, result, hresult, hlines⟩ := hstatement.exists_source hcodec
  refine ⟨accepted, failure, _, hfails, hremains, fun _ hleft => hleft.unique hremains, htaken,
    ⟨other, result, hresult, ?_⟩, exists_runLines_of_front hfront⟩
  rw [hlines, ← statement.map_line_instructions]
  exact hfront.map Instruction.line

open Statement in
/-- A literal after an operand, under a name that no text can be decoded by. -/
theorem Session.read_leaves_undecodable_literal :
    let source : Source := ⟨"cut", [0x6C, 0x65, 0x74, 0x20, 0x61, 0x3D, 0x31, 0x2B, 0x62, 0x22,
      0x71, 0x22]⟩
    let scanner := Scanner.ofSource source "hex"
    let tape : Tape := ⟨scanner.next.1, false, []⟩
    let parser : Parser := ⟨0, 0, ⟨.keyword .let, "let", some ⟨"cut", 1, 1⟩⟩⟩
    let session : Session := ⟨[tape], [.list ["held"]], [parser], [], []⟩
    session.scanners[0]? = some tape ∧ session.sinks[0]? = some (.list ["held"]) ∧
      scanner.next = (tape.scanner, .ok parser.current) ∧
      (session.read 0 parser).2 = some (.encoding (.notText "hex")) ∧
      (session.read 0 parser).1.sinks[0]? = some (.list ["held", "push 1", "push b"]) ∧
      ∃ accepted failure left,
        Fails source "hex" accepted (.encoding (.notText "hex")) failure ∧
        Remains failure (accepted.map Token.key) left ∧
        (∀ other, Remains failure (accepted.map Token.key) other → other = left) ∧
        (session.read 0 parser).1.sinks[0]? =
          some (Sink.followedBy (.list ["held"]) (left.map Instruction.line)) ∧
        (∃ other result, (compile .standard other).outcome = .ok result ∧
          left.map Instruction.line <+: result.instructions) ∧
        ∀ (stack : List Int) (store : Store), ∃ above later,
          Machine.runLines ⟨stack, store⟩ (left.map Instruction.line) =
            some ⟨above ++ stack, later⟩ := by
  intro source scanner tape parser session
  have hfirst : scanner.next.2.toOption.map (fun token => (token.key, token.location)) =
      some (parser.current.key, parser.current.location) := by
    decide +kernel
  have hfresh : scanner.next = (tape.scanner, .ok parser.current) := by
    have htape : tape.scanner = scanner.next.1 := rfl
    rcases hdraw : scanner.next with ⟨after, fault | ⟨kind, text, location⟩⟩
    · simp [hdraw, Except.toOption] at hfirst
    · rw [hdraw] at hfirst htape
      obtain ⟨hkey, rfl⟩ := Prod.mk.inj (Option.some.inj hfirst)
      obtain ⟨rfl, rfl⟩ := Prod.mk.inj hkey
      rw [htape]
  have hfault : (session.read 0 parser).2 = some (.encoding (.notText "hex")) := by
    decide +kernel
  exact ⟨rfl, rfl, hfresh, hfault, by decide +kernel, read_leaves rfl rfl hfresh hfault⟩

end LetLang
