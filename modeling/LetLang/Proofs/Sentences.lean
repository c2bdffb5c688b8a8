import LetLang.Proofs.ReadingOutcome
import LetLang.Statement.Basic

/-!
# The tokens that make a statement

The stages accept exactly the token sequences that statements are written with, and emit the
instructions of the statement on the way. The grammar goes on to the right, so the operator of
a link is applied a stage later than its operand is pushed; the induction over the links
carries the operator that is still pending.
-/

namespace LetLang

theorem isNumeral_latinText_cons (byte : Byte) (rest : List Byte) :
    isNumeral (latinText (byte :: rest)) = byte.isDigit := by
  simp [isNumeral, latinText]

theorem IsWord.isNumeral {word : List Byte} (hword : IsWord word) :
    isNumeral (latinText word) = false := by
  obtain ⟨first, hhead, hfirst⟩ := hword.exists_first
  obtain ⟨later, rfl⟩ := List.head?_eq_some_iff.mp hhead
  rw [isNumeral_latinText_cons, Byte.isDigit_of_startsWord hfirst]

theorem IsNumber.isNumeral {digits : List Byte} (hdigits : IsNumber digits) :
    isNumeral (latinText digits) = true := by
  obtain ⟨first, hhead, hdigit⟩ := hdigits.exists_first
  obtain ⟨later, rfl⟩ := List.head?_eq_some_iff.mp hhead
  rw [isNumeral_latinText_cons, hdigit]

/-- Whether the text of a token is one that its kind has. -/
def Token.Faithful (token : Token) : Prop :=
  match token.kind with
  | .keyword reserved => token.text = reserved.word
  | .mark sign => token.text = latinText [sign.byte]
  | .number => isNumeral token.text = true
  | .identifier => isNumeral token.text = false
  | _ => True

namespace Scanner

/-- Every token drawn has a text of its kind, whatever the encoding. -/
theorem faithful_of_next {scanner after : Scanner} {token : Token}
    (hdraw : scanner.next = (after, .ok token)) : token.Faithful := by
  rcases next_ok_cases hdraw with
    ⟨gap, spelling, rest, _, hvalid, _, _, htext, hkind, _⟩ | ⟨_, hkind, _⟩
  · cases spelling with
    | keyword reserved =>
        have htext : latinText reserved.bytes = token.text := Except.ok.inj htext
        simp [Token.Faithful, hkind, Spelling.kind, ← htext]
    | identifier name =>
        have htext : latinText name = token.text := Except.ok.inj htext
        simp [Token.Faithful, hkind, Spelling.kind, ← htext, hvalid.1.isNumeral]
    | number digits =>
        have htext : latinText digits = token.text := Except.ok.inj htext
        simp [Token.Faithful, hkind, Spelling.kind, ← htext, IsNumber.isNumeral hvalid]
    | mark sign =>
        have htext : latinText [sign.byte] = token.text := Except.ok.inj htext
        simp [Token.Faithful, hkind, Spelling.kind, ← htext]
    | illegal byte => simp [Token.Faithful, hkind, Spelling.kind]
    | string body closed => simp [Token.Faithful, hkind, Spelling.kind]
  · simp [Token.Faithful, hkind]

theorem Draws.faithful {scanner after : Scanner} {tokens : List Token}
    (hdraws : scanner.Draws tokens after) : ∀ token ∈ tokens, token.Faithful := by
  induction hdraws with
  | nil => simp
  | cons hdraw _ ih => exact List.forall_mem_cons.mpr ⟨faithful_of_next hdraw, ih⟩

end Scanner

namespace Statement

def semicolonKey : Kind × String := (.mark .semicolon, latinText [Mark.semicolon.byte])

theorem tokens_eq (statement : Statement) :
    statement.tokens =
      (.keyword .let, Keyword.let.word) :: (.identifier, statement.target) ::
        (.mark .equals, latinText [Mark.equals.byte]) ::
        (kindOf statement.first, statement.first) ::
        (statement.rest.flatMap linkTokens ++ [semicolonKey]) := rfl

theorem kindOf_eq (operand : String) : kindOf operand = .number ∨ kindOf operand = .identifier := by
  unfold kindOf
  split
  · exact Or.inl rfl
  · exact Or.inr rfl

namespace Stage

/-! ## Single steps -/

theorem step_operator {token : Token} {operator : Operator}
    (hkind : token.kind = .mark (markOf operator)) (name : String) (pending : Option Operator) :
    (chain name pending).step token = (applied pending, .ok (.operand name (some operator))) := by
  cases operator <;> simp [step, hkind, markOf]

theorem step_operand {token : Token} {operand : String}
    (htoken : token.key = (kindOf operand, operand)) (name : String) (pending : Option Operator) :
    (Stage.operand name pending).step token = ([.push operand], .ok (.chain name pending)) := by
  obtain ⟨hkind, rfl⟩ := Prod.mk.inj htoken
  have hoperand : token.kind = .number ∨ token.kind = .identifier := hkind ▸ kindOf_eq token.text
  rw [step, if_pos hoperand]

theorem step_semicolon {token : Token} (hkind : token.kind = .mark .semicolon) (name : String)
    (pending : Option Operator) :
    (chain name pending).step token = (applied pending ++ [.pop name], .ok (.complete name)) := by
  simp [step, hkind]

theorem of_ite_eq_ok {due : Prop} [Decidable due] {first emitted : List Instruction}
    {second : List Instruction × Except Expectation Stage} {next reached : Stage}
    {needed : Expectation} (hsecond : second.2 = .error needed)
    (hstep : (if due then (first, .ok reached) else second) = (emitted, .ok next)) :
    due ∧ emitted = first ∧ next = reached := by
  split at hstep
  next hdue =>
    obtain ⟨rfl, rfl⟩ := mk_ok_inj hstep
    exact ⟨hdue, rfl, rfl⟩
  next =>
    rw [hstep] at hsecond
    cases hsecond

theorem step_chain_cases {name : String} {pending : Option Operator} {token : Token}
    {emitted : List Instruction} {next : Stage}
    (hstep : (chain name pending).step token = (emitted, .ok next)) :
    (∃ operator, token.kind = .mark (markOf operator) ∧ emitted = applied pending ∧
        next = .operand name (some operator)) ∨
      (token.kind = .mark .semicolon ∧ emitted = applied pending ++ [.pop name] ∧
        next = .complete name) := by
  rw [step] at hstep
  split at hstep
  next hplus =>
    obtain ⟨rfl, rfl⟩ := mk_ok_inj hstep
    exact Or.inl ⟨.add, hplus, rfl, rfl⟩
  next =>
    split at hstep
    next hminus =>
      obtain ⟨rfl, rfl⟩ := mk_ok_inj hstep
      exact Or.inl ⟨.sub, hminus, rfl, rfl⟩
    next =>
      split at hstep
      next hsemicolon =>
        obtain ⟨rfl, rfl⟩ := mk_ok_inj hstep
        exact Or.inr ⟨hsemicolon, rfl, rfl⟩
      next => cases (Prod.mk.inj hstep).2

theorem of_step_operand {name : String} {pending : Option Operator} {token : Token}
    {emitted : List Instruction} {next : Stage}
    (hstep : (Stage.operand name pending).step token = (emitted, .ok next)) :
    (token.kind = .number ∨ token.kind = .identifier) ∧ emitted = [.push token.text] ∧
      next = .chain name pending :=
  of_ite_eq_ok rfl hstep

/-! ## From a statement to its run -/

/-- Links and a semicolon complete a statement from an operand on. -/
theorem run_links {links : List (Operator × String)} {tokens : List Token}
    (htokens : tokens.map Token.key = links.flatMap linkTokens ++ [semicolonKey]) (name : String)
    (pending : Option Operator) :
    (chain name pending).run tokens =
      (applied pending ++ (links.flatMap linkInstructions ++ [.pop name]),
        .ok (.complete name)) := by
  induction links generalizing tokens pending with
  | nil =>
      obtain ⟨token, rfl, hkey⟩ := List.map_eq_singleton_iff.mp htokens
      rw [run_singleton, step_semicolon (Prod.mk.inj hkey).1]
      rfl
  | cons link links ih =>
      obtain ⟨operator, tokens, rfl, hoperator, htokens⟩ := List.map_eq_cons_iff.mp htokens
      obtain ⟨operand, tokens, rfl, hoperand, htokens⟩ := List.map_eq_cons_iff.mp htokens
      -- the operator before is applied now, and this one is pending
      rw [run_cons_of_ok (step_operator (Prod.mk.inj hoperator).1 name pending),
        run_cons_of_ok (step_operand hoperand name (some link.1)), ih htokens]
      simp [linkInstructions, applied]

/-- The tokens of a statement complete it and emit its instructions. -/
theorem run_tokens {statement : Statement} {tokens : List Token}
    (htokens : tokens.map Token.key = statement.tokens) :
    Stage.start.run tokens = (statement.instructions, .ok (.complete statement.target)) := by
  rw [tokens_eq] at htokens
  obtain ⟨word, tokens, rfl, hword, htokens⟩ := List.map_eq_cons_iff.mp htokens
  obtain ⟨target, tokens, rfl, htarget, htokens⟩ := List.map_eq_cons_iff.mp htokens
  obtain ⟨equals, tokens, rfl, hequals, htokens⟩ := List.map_eq_cons_iff.mp htokens
  obtain ⟨first, tokens, rfl, hfirst, htokens⟩ := List.map_eq_cons_iff.mp htokens
  obtain ⟨hword, _⟩ := Prod.mk.inj hword
  obtain ⟨htarget, hname⟩ := Prod.mk.inj htarget
  obtain ⟨hequals, _⟩ := Prod.mk.inj hequals
  have hstart : Stage.start.step word = ([], .ok .target) := by simp [step, hword]
  have hnamed : Stage.target.step target = ([], .ok (.equals statement.target)) := by
    simp [step, htarget, hname]
  have hequal : (Stage.equals statement.target).step equals =
      ([], .ok (.operand statement.target none)) := by simp [step, hequals]
  rw [run_cons_of_ok hstart, run_cons_of_ok hnamed, run_cons_of_ok hequal,
    run_cons_of_ok (step_operand hfirst statement.target none), run_links htokens]
  simp [instructions, applied]

/-! ## From a run to its statement -/

theorem key_of_mark {token : Token} (hfaithful : token.Faithful) {sign : Mark}
    (hkind : token.kind = .mark sign) : token.key = (.mark sign, latinText [sign.byte]) := by
  simp only [Token.Faithful, hkind] at hfaithful
  simp [Token.key, hkind, hfaithful]

theorem key_of_operand {token : Token} (hfaithful : token.Faithful)
    (hkind : token.kind = .number ∨ token.kind = .identifier) :
    token.key = (kindOf token.text, token.text) := by
  rcases hkind with hkind | hkind <;> simp only [Token.Faithful, hkind] at hfaithful <;>
    simp [Token.key, kindOf, hkind, hfaithful]

/-- A run from an operand on that completes its statement has met links and a semicolon. The
stages in which an operand is due are part of the induction: the two kinds take turns. -/
theorem exists_links (tokens : List Token) (hfaithful : ∀ token ∈ tokens, token.Faithful) :
    (∀ name pending emitted target,
      (chain name pending).run tokens = (emitted, .ok (.complete target)) →
        ∃ links : List (Operator × String),
          tokens.map Token.key = links.flatMap linkTokens ++ [semicolonKey] ∧
          emitted = applied pending ++ (links.flatMap linkInstructions ++ [.pop name]) ∧
          target = name) ∧
      ∀ name pending emitted target,
        (Stage.operand name pending).run tokens = (emitted, .ok (.complete target)) →
          ∃ (operand : String) (links : List (Operator × String)), tokens.map Token.key =
              (kindOf operand, operand) :: (links.flatMap linkTokens ++ [semicolonKey]) ∧
            emitted = .push operand ::
              (applied pending ++ (links.flatMap linkInstructions ++ [.pop name])) ∧
            target = name := by
  -- a token takes each of the two halves to the other one for the tokens after it
  induction tokens with
  | nil => simp [run]
  | cons token tokens ih =>
      obtain ⟨htoken, htokens⟩ := List.forall_mem_cons.mp hfaithful
      obtain ⟨ihchain, ihoperand⟩ := ih htokens
      constructor
      · intro name pending emitted target hrun
        obtain ⟨first, next, later, hstep, hlater, rfl⟩ := run_cons_eq_ok_iff.mp hrun
        rcases step_chain_cases hstep with ⟨operator, hkind, rfl, rfl⟩ | ⟨hkind, rfl, rfl⟩
        · obtain ⟨operand, links, hkeys, rfl, rfl⟩ := ihoperand _ _ _ _ hlater
          refine ⟨(operator, operand) :: links, ?_, ?_, rfl⟩
          · simp [key_of_mark htoken hkind, hkeys, linkTokens]
          · simp [linkInstructions, applied]
        · cases tokens with
          | nil =>
              obtain ⟨rfl, hcomplete⟩ := mk_ok_inj hlater
              obtain rfl := Stage.complete.inj hcomplete
              exact ⟨[], by simp [key_of_mark htoken hkind, semicolonKey], by simp, rfl⟩
          | cons => exact absurd hlater run_complete_cons_ne_ok
      · intro name pending emitted target hrun
        obtain ⟨first, next, later, hstep, hlater, rfl⟩ := run_cons_eq_ok_iff.mp hrun
        obtain ⟨hkind, rfl, rfl⟩ := of_step_operand hstep
        obtain ⟨links, hkeys, rfl, rfl⟩ := ihchain _ _ _ _ hlater
        exact ⟨token.text, links, by simp [key_of_operand htoken hkind, hkeys], rfl, rfl⟩

theorem of_step_start {token : Token} {emitted : List Instruction} {next : Stage}
    (hstep : Stage.start.step token = (emitted, .ok next)) :
    token.kind = .keyword .let ∧ emitted = [] ∧ next = .target :=
  of_ite_eq_ok rfl hstep

theorem of_step_target {token : Token} {emitted : List Instruction} {next : Stage}
    (hstep : Stage.target.step token = (emitted, .ok next)) :
    token.kind = .identifier ∧ emitted = [] ∧ next = .equals token.text :=
  of_ite_eq_ok rfl hstep

theorem of_step_equals {name : String} {token : Token} {emitted : List Instruction}
    {next : Stage} (hstep : (Stage.equals name).step token = (emitted, .ok next)) :
    token.kind = .mark .equals ∧ emitted = [] ∧ next = .operand name none :=
  of_ite_eq_ok rfl hstep

/-- Tokens that complete a statement are the tokens of one, and what they emit are its
instructions. -/
theorem exists_statement {tokens : List Token} {emitted : List Instruction} {target : String}
    (hfaithful : ∀ token ∈ tokens, token.Faithful)
    (hrun : Stage.start.run tokens = (emitted, .ok (.complete target))) :
    ∃ statement : Statement, tokens.map Token.key = statement.tokens ∧
      emitted = statement.instructions ∧ target = statement.target := by
  match tokens with
  | [] => cases (Prod.mk.inj hrun).2
  | word :: tokens =>
  obtain ⟨_, _, _, hstart, hrun, rfl⟩ := run_cons_eq_ok_iff.mp hrun
  obtain ⟨hword, rfl, rfl⟩ := of_step_start hstart
  match tokens with
  | [] => cases (Prod.mk.inj hrun).2
  | name :: tokens =>
  obtain ⟨_, _, _, hnamed, hrun, rfl⟩ := run_cons_eq_ok_iff.mp hrun
  obtain ⟨hname, rfl, rfl⟩ := of_step_target hnamed
  match tokens with
  | [] => cases (Prod.mk.inj hrun).2
  | sign :: tokens =>
  obtain ⟨_, _, _, hequal, hrun, rfl⟩ := run_cons_eq_ok_iff.mp hrun
  obtain ⟨hequals, rfl, rfl⟩ := of_step_equals hequal
  simp only [List.forall_mem_cons] at hfaithful
  obtain ⟨hfaithful, _, hfaithfulEquals, hlater⟩ := hfaithful
  obtain ⟨first, links, hkeys, rfl, rfl⟩ := (exists_links tokens hlater).2 _ _ _ _ hrun
  have hlet : word.text = Keyword.let.word := by
    simpa [Token.Faithful, hword] using hfaithful
  refine ⟨⟨name.text, first, links⟩, ?_, ?_, rfl⟩
  · rw [tokens_eq]
    simp only [List.map_cons, hkeys, key_of_mark hfaithfulEquals hequals]
    simp [Token.key, hword, hname, hlet]
  · simp [instructions, applied]

end Stage

end Statement

end LetLang
