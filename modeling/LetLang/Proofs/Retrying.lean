import LetLang.Proofs.ParserStates
import LetLang.Proofs.Suffixes

/-!
# Calling a parser again

A call that refuses a token leaves it in hand, and the scanner right behind it. So the next call
either refuses it at once, or reads a statement from it as if the source started there. A call that
fails on a comment leaves the scanner at the end of the text with an older token in hand. Whatever
that token is, no later call reads or emits anything.
-/

namespace LetLang

namespace Parser.State

open Statement

variable {state fresh : State} {source : Source} {encoding : Decoder} {codec : Encoding}

/-- Whether the token in hand is the one that the scanner has handed out last, and the scanner has
not moved since. -/
def InStep (state : State) (source : Source) (encoding : Decoder) : Prop :=
  ∃ before, Scanner.Reachable source encoding before ∧
    before.next = (state.scanner, .ok state.current)

/-! ## Tokens that are refused -/

/-- What is refused is the token in hand after the call, and it is the last one drawn. -/
theorem of_unexpectedToken {found : String} {expected : Option String}
    {location : Option Location} {quoted : Option String}
    (hfault : state.reading.fault =
      some (.diagnostic ⟨.unexpectedToken found expected, location, quoted⟩)) :
    state.read.current.text = found ∧ state.read.current.location = location ∧
      quoted = location.map (fun place => state.scanner.source.line place.line) ∧
      state.scanner.Draws state.reading.tokens state.read.scanner := by
  cases readFrom_outcome .start state.scanner state.current with
  | completed _ _ _ _ _ _ _ hnone => cases hfault.symm.trans hnone
  | refused before reached needed _ _ _ _ _ _ hdraws hrefused =>
      have hreport := Fault.diagnostic.inj (Option.some.inj (hfault.symm.trans hrefused))
      rw [unexpected, Diagnostic.mk.injEq, Cause.unexpectedToken.injEq] at hreport
      obtain ⟨⟨rfl, _⟩, rfl, rfl⟩ := hreport
      exact ⟨rfl, rfl, rfl, hdraws⟩
  | failed reached middle cause _ _ hdraw _ hfailed =>
      obtain rfl := Option.some.inj (hfault.symm.trans hfailed)
      rcases Scanner.next_error_cases hdraw with ⟨_, _, _, _, _, hunclosed, _⟩ |
        ⟨_, _, _, _, _, _, _, _, _, hencoding, _⟩
      · cases hunclosed
      · cases hencoding

/-! ## In step with the scanner -/

theorem InStep.of_opens (hopens : fresh.Opens source encoding) : fresh.InStep source encoding :=
  ⟨_, .start, hopens⟩

/-- Draws that end with the token in hand leave a parser in step. -/
theorem InStep.of_draws (hstep : state.InStep source encoding) {tokens : List Token}
    {next : State} (hdraws : state.scanner.Draws tokens next.scanner)
    (hlast : (state.current :: tokens).getLast? = some next.current) :
    next.InStep source encoding := by
  obtain ⟨before, hreached, hcurrent⟩ := hstep
  have hall := Scanner.Draws.cons hcurrent hdraws
  obtain ⟨front, hfront⟩ := List.getLast?_eq_some_iff.mp hlast
  rw [hfront] at hall
  obtain ⟨middle, hmiddle, hdraw⟩ := Scanner.Draws.concat_iff.mp hall
  exact ⟨middle, hreached.of_draws hmiddle, hdraw⟩

/-- A call leaves a parser in step unless it fails on a comment. -/
theorem InStep.read_cases (hstep : state.InStep source encoding)
    (hcodec : Encoding.find encoding.name = .ok codec) :
    state.read.InStep source encoding ∨ ∃ location quoted, state.reading.fault =
      some (.diagnostic ⟨.unclosedComment, location, quoted⟩) := by
  have hlast := getLast?_readFrom .start state.scanner state.current
  cases readFrom_outcome .start state.scanner state.current with
  | completed tokens last target _ hdraws htokens _ _ =>
      rw [← htokens] at hdraws
      exact Or.inl (hstep.of_draws hdraws hlast)
  | refused _ _ _ _ _ _ _ _ _ hdraws _ => exact Or.inl (hstep.of_draws hdraws hlast)
  | failed reached middle fault _ hdraws hdraw _ hfault =>
      right
      obtain ⟨before, hreached, hcurrent⟩ := hstep
      have hencoding := ((Scanner.Reachable.draw hreached hcurrent).of_draws hdraws).encoding_eq
      rcases Scanner.next_error_cases hdraw with ⟨_, _, _, _, _, rfl, _⟩ |
        ⟨_, spelling, _, cause, _, _, _, _, htext, _, _⟩
      · exact ⟨_, _, hfault⟩
      · -- every literal can be decoded
        rw [hencoding, Spelling.textBy_eq hcodec] at htext
        cases htext

/-! ## At the end of the text -/

/-- A comment that never closes uses up the text. -/
theorem spent_of_unclosedComment {location : Option Location} {quoted : Option String}
    (hfault : state.reading.fault =
      some (.diagnostic ⟨.unclosedComment, location, quoted⟩)) :
    state.read.scanner.rest = [] := by
  cases readFrom_outcome .start state.scanner state.current with
  | completed _ _ _ _ _ _ _ hnone => cases hfault.symm.trans hnone
  | refused _ _ _ _ _ _ _ _ _ _ hrefused => cases hfault.symm.trans hrefused
  | failed reached middle fault _ _ hdraw _ hfailed =>
      obtain rfl := Option.some.inj (hfault.symm.trans hfailed)
      rcases Scanner.next_error_cases hdraw with ⟨_, _, _, _, _, _, hafter⟩ |
        ⟨_, _, _, _, _, _, _, _, _, hencoding, _⟩
      · exact congrArg Scanner.rest hafter
      · cases hencoding

/-- At the end of the text a call reads and emits nothing, whatever token is in hand. -/
theorem read_of_spent (hspent : state.scanner.rest = []) :
    (∃ found expected location quoted, state.reading.fault =
      some (.diagnostic ⟨.unexpectedToken found expected, location, quoted⟩)) ∧
      state.reading.lines = [] ∧ state.read.scanner.rest = [] ∧
      state.read.current.kind ≠ .keyword .let := by
  by_cases hkind : state.current.kind = .keyword .let
  · have hstep : Stage.start.step state.current = ([], .ok .target) := if_pos hkind
    have hfinal : Gap.IsFinalGap state.scanner.rest := by
      rw [hspent]
      exact Or.inl Gap.isGap_nil
    have hrefused (location : Option Location) :
        Stage.target.step ⟨.finish, Kind.finish.name, location⟩ = ([], .error .identifier) := rfl
    have hreading := readFrom_of_open hstep (Scanner.next_of_isFinalGap hfinal) (by simp)
    rw [readFrom_of_refused (hrefused _)] at hreading
    rw [Parser.State.read, reading, Statement.read, hreading]
    exact ⟨⟨_, _, _, _, rfl⟩, rfl, rfl, by simp [Reading.after]⟩
  · rw [read_of_kind_ne hkind, reading_of_kind_ne hkind]
    exact ⟨⟨_, _, _, _, rfl⟩, rfl, hspent, hkind⟩

theorem iterate_of_spent (hspent : state.scanner.rest = []) (more : Nat) :
    (read^[more] state).scanner.rest = [] := by
  induction more generalizing state with
  | zero => exact hspent
  | succ more ih => exact ih (read_of_spent hspent).2.2.1

/-- After any number of calls a parser is in step or its text is used up. -/
theorem inStep_or_spent (hopens : fresh.Opens source encoding)
    (hcodec : Encoding.find encoding.name = .ok codec) (count : Nat) :
    (read^[count] fresh).InStep source encoding ∨ (read^[count] fresh).scanner.rest = [] := by
  induction count with
  | zero => exact Or.inl (.of_opens hopens)
  | succ count ih =>
      rw [Function.iterate_succ_apply']
      rcases ih with hstep | hspent
      · refine (hstep.read_cases hcodec).imp_right ?_
        rintro ⟨location, quoted, hfault⟩
        exact spent_of_unclosedComment hfault
      · exact Or.inr (read_of_spent hspent).2.2.1

theorem inStep_of_closed (hopens : fresh.Opens source encoding)
    (hcodec : Encoding.find encoding.name = .ok codec) {count : Nat}
    (hclosed : ∀ earlier < count, ∀ location quoted, (read^[earlier] fresh).reading.fault ≠
      some (.diagnostic ⟨.unclosedComment, location, quoted⟩)) :
    (read^[count] fresh).InStep source encoding := by
  induction count with
  | zero => exact .of_opens hopens
  | succ count ih =>
      have hstep := ih fun earlier hearlier => hclosed earlier (Nat.lt_succ_of_lt hearlier)
      rw [Function.iterate_succ_apply']
      rcases hstep.read_cases hcodec with hread | ⟨location, quoted, hfault⟩
      · exact hread
      · exact absurd hfault (hclosed count (Nat.lt_succ_self count) location quoted)

/-! ## From a token on -/

/-- A parser in step that has `let` in hand reads what a parser of the source cut there reads. -/
theorem InStep.exists_cut (hstep : state.InStep source encoding)
    (hkind : state.current.kind = .keyword .let) :
    ∃ (offset : Nat) (other : State),
      state.current.location = some (source.locate (source.positionAt offset)) ∧
      Keyword.let.bytes <+: source.bytes.drop offset ∧
      other.Opens (source.cut offset) encoding ∧
      state.reading.lines = other.reading.lines ∧
      state.reading.fault =
        other.reading.fault.map (Fault.shift source (source.positionAt offset)) := by
  obtain ⟨before, hreached, hdraw⟩ := hstep
  rcases Scanner.next_ok_cases hdraw with
    ⟨gap, spelling, rest, hgap, hvalid, hends, hrest, hspelled, hspelling, hlocation, hafter⟩ |
    ⟨_, hfinish, _⟩
  · obtain ⟨offset, hplace, hdropped, hwithin⟩ := hreached.exists_within hrest
    -- the scanner that stands at the token draws what the one of the cut source does
    rw [Scanner.next_of_gap hgap hrest] at hdraw
    rcases (Comparison.lawful_shifted source offset).draw_ok hwithin hdraw with
      ⟨later, other, hother, hrelated, halike⟩ | ⟨_, _, _, hparted⟩
    · have hshifted : state.current = other.shift (source.positionAt offset) := halike
      obtain ⟨hinstructions, hfault⟩ :
          state.reading.instructions = (Statement.read later other).instructions ∧
            state.reading.fault = (Statement.read later other).fault.map
              (Fault.shift source (source.positionAt offset)) := by
        rw [reading, hshifted]
        exact read_cut hrelated
      refine ⟨offset, ⟨later, other, state.sink⟩, ?_, ?_, hother, ?_, hfault⟩
      · rw [hlocation, hplace]
      · rw [hkind] at hspelling
        obtain rfl := Layout.eq_keyword_of_kind hspelling.symm
        exact (List.prefix_append ..).trans hdropped
      · exact congrArg (List.map Instruction.line) hinstructions
    · exact hparted.elim
  · rw [hkind] at hfinish
    cases hfinish

end Parser.State

open Parser.State in
/-- **A parser that is called again repeats nothing and skips nothing.** Under an encoding of text,
a call of a parser that alone draws from its scanner may refuse a token. Then this token is in hand,
nothing has been drawn after it, and the scanner has not moved since unless a call before that has
failed on a comment. The next call refuses the same token at once and changes nothing, or, if the
token is `let`, reads what a parser of the source cut there reads. A call that fails on a comment
keeps its last token in hand, and every later call refuses a token and emits nothing. -/
theorem Session.parse_again {session : Session} {name : String} {source : Source}
    {encoding : Decoder} {codec : Encoding} {fresh : Parser.State}
    (hcodec : Encoding.find encoding.name = .ok codec) (hparser : session.HasParser name fresh)
    (hopens : fresh.Opens source encoding) (count : Nat) :
    let state := Parser.State.read^[count] fresh
    let called := session.performAll (List.replicate count (.parse name))
    let next := called.1.perform (.parse name)
    (called.1.HasParser name state ∧ next.1.HasParser name state.read ∧
      next.2 = .parsed state.reading.fault state.read.view) ∧
    (∀ found expected location quoted, state.reading.fault =
        some (.diagnostic ⟨.unexpectedToken found expected, location, quoted⟩) →
      (state.read.current.text = found ∧ state.read.current.location = location ∧
        state.scanner.Draws state.reading.tokens state.read.scanner ∧
        (state.current :: state.reading.tokens).getLast? = some state.read.current) ∧
      ((∀ earlier < count, ∀ place line, (Parser.State.read^[earlier] fresh).reading.fault ≠
          some (.diagnostic ⟨.unclosedComment, place, line⟩)) →
        state.read.InStep source encoding) ∧
      (state.read.current.kind ≠ .keyword .let →
        state.read.read = state.read ∧ state.read.reading.tokens = [] ∧
          state.read.reading.lines = [] ∧ state.read.reading.fault =
            some (.diagnostic ⟨.unexpectedToken found (some "'let'"), location, quoted⟩)) ∧
      (state.read.current.kind = .keyword .let → ∃ (offset : Nat) (other : Parser.State),
        location = some (source.locate (source.positionAt offset)) ∧
        Keyword.let.bytes <+: source.bytes.drop offset ∧
        other.Opens (source.cut offset) encoding ∧
        state.read.reading.lines = other.reading.lines ∧ state.read.reading.fault =
          other.reading.fault.map (Fault.shift source (source.positionAt offset)))) ∧
    (∀ location quoted, state.reading.fault =
        some (.diagnostic ⟨.unclosedComment, location, quoted⟩) →
      (state.current :: state.reading.tokens).getLast? = some state.read.current ∧
      ∀ later > count, (Parser.State.read^[later] fresh).reading.lines = [] ∧
        ∃ found expected place line, (Parser.State.read^[later] fresh).reading.fault =
          some (.diagnostic ⟨.unexpectedToken found expected, place, line⟩)) := by
  intro state called next
  have hcalled := hparser.performAll_parse count
  obtain ⟨hnext, hanswer⟩ := hcalled.perform_parse
  have hlast : (state.current :: state.reading.tokens).getLast? = some state.read.current :=
    Statement.getLast?_readFrom .start state.scanner state.current
  refine ⟨⟨hcalled, hnext, hanswer⟩, ?_, ?_⟩
  · intro found expected location quoted hfault
    obtain ⟨rfl, rfl, rfl, hdraws⟩ := of_unexpectedToken hfault
    refine ⟨⟨rfl, rfl, hdraws, hlast⟩, ?_, ?_, ?_⟩
    · intro hclosed
      exact (inStep_of_closed hopens hcodec hclosed).of_draws hdraws hlast
    · intro hkind
      rw [reading_of_kind_ne hkind, hdraws.source_eq]
      exact ⟨read_of_kind_ne hkind, rfl, rfl, rfl⟩
    · intro hkind
      rcases inStep_or_spent hopens hcodec count with hstep | hspent
      · exact (hstep.of_draws hdraws hlast).exists_cut hkind
      · exact absurd hkind (read_of_spent hspent).2.2.2
  · intro location quoted hfault
    refine ⟨hlast, fun later hlater => ?_⟩
    obtain ⟨more, rfl⟩ := Nat.exists_eq_add_of_lt hlater
    have hstate : Parser.State.read^[count + more + 1] fresh =
        Parser.State.read^[more] state.read := by
      rw [Nat.add_right_comm, Nat.add_comm _ more, Function.iterate_add_apply,
        Function.iterate_succ_apply']
    rw [hstate]
    obtain ⟨hrefused, hlines, _⟩ :=
      read_of_spent (iterate_of_spent (spent_of_unclosedComment hfault) more)
    exact ⟨hlines, hrefused⟩

/-- After `a` the statement starts over with a second `let`, which the next call reads. -/
theorem Session.parse_again_second_let :
    let source : Source := ⟨"again", [0x6C, 0x65, 0x74, 0x20, 0x61, 0x0A, 0x6C, 0x65, 0x74, 0x20,
      0x62, 0x3D, 0x31, 0x2B, 0x2A]⟩
    let fresh : Parser.State := ⟨(Scanner.ofSource source "utf-8").next.1,
      ⟨.keyword .let, "let", some ⟨"again", 1, 1⟩⟩, .list ["held"]⟩
    let session := Session.empty.performAll (opening source "utf-8" true (.list ["held"]))
    Encoding.find "utf-8" = .ok .utf8 ∧ session.1.HasParser "parser" fresh ∧
      fresh.Opens source "utf-8" ∧
      fresh.reading.fault = some (.diagnostic
        ⟨.unexpectedToken "let" (some "'='"), some ⟨"again", 2, 1⟩, some "let b=1+*"⟩) ∧
      fresh.read.current.kind = .keyword .let ∧ fresh.read.InStep source "utf-8" ∧
      ∃ (offset : Nat) (other : Parser.State),
        some ⟨"again", 2, 1⟩ = some (source.locate (source.positionAt offset)) ∧
        Keyword.let.bytes <+: source.bytes.drop offset ∧
        other.Opens (source.cut offset) "utf-8" ∧
        fresh.read.reading.lines = other.reading.lines ∧
        fresh.read.reading.fault =
          other.reading.fault.map (Fault.shift source (source.positionAt offset)) := by
  intro source fresh session
  have hcodec : Encoding.find "utf-8" = .ok .utf8 := rfl
  have hopens : fresh.Opens source "utf-8" := Scanner.next_eq_of_map (by decide +kernel)
  have hparser := hasParser_of_opens .empty hopens true
  have hfault : fresh.reading.fault = some (.diagnostic
      ⟨.unexpectedToken "let" (some "'='"), some ⟨"again", 2, 1⟩, some "let b=1+*"⟩) := by
    decide +kernel
  have hkind : fresh.read.current.kind = .keyword .let := by
    decide +kernel
  obtain ⟨_, hrefused, _⟩ := Session.parse_again hcodec hparser hopens 0
  obtain ⟨_, hstep, _, hagain⟩ := hrefused _ _ _ _ hfault
  exact ⟨hcodec, hparser, hopens, hfault, hkind, hstep (by simp), hagain hkind⟩

/-- A comment that never closes fails the draw after `a`. The next call refuses `a`, which was drawn
before the scanner has passed the comment. -/
theorem Session.parse_again_stale_token :
    let source : Source := ⟨"stale", [0x6C, 0x65, 0x74, 0x20, 0x61, 0x20, 0x2F, 0x2A]⟩
    let fresh : Parser.State := ⟨(Scanner.ofSource source "utf-8").next.1,
      ⟨.keyword .let, "let", some ⟨"stale", 1, 1⟩⟩, .list []⟩
    let session := Session.empty.performAll (opening source "utf-8" false (.list []))
    let called := session.1.performAll (List.replicate 2 (.parse "parser"))
    session.1.HasParser "parser" fresh ∧ fresh.Opens source "utf-8" ∧
      fresh.reading.fault = some (.diagnostic
        ⟨.unclosedComment, some ⟨"stale", 1, 7⟩, some "let a /*"⟩) ∧
      fresh.read.reading.fault = some (.diagnostic
        ⟨.unexpectedToken "a" (some "'let'"), some ⟨"stale", 1, 5⟩, some "let a /*"⟩) ∧
      called.1.HasParser "parser" fresh.read.read ∧
      ¬ fresh.read.read.InStep source "utf-8" := by
  intro source fresh session called
  have hopens : fresh.Opens source "utf-8" := Scanner.next_eq_of_map (by decide +kernel)
  have hparser := hasParser_of_opens .empty hopens false
  refine ⟨hparser, hopens, by decide +kernel, by decide +kernel, hparser.performAll_parse 2, ?_⟩
  rintro ⟨before, _, hdraw⟩
  have hkind : fresh.read.read.current.kind = .identifier := by decide +kernel
  have htext : fresh.read.read.current.text = "a" := by decide +kernel
  have hplace : fresh.read.read.current.location = some ⟨"stale", 1, 5⟩ := by decide +kernel
  have hcolumn : fresh.read.read.scanner.position.column = 9 := by decide +kernel
  rcases Scanner.next_ok_cases hdraw with
    ⟨gap, spelling, rest, _, _, _, _, hspelled, hspelling, hlocation, hafter⟩ | ⟨_, hfinish, _⟩
  · -- a scanner that has just drawn the token stands in the next column
    rw [hkind] at hspelling
    obtain ⟨name, rfl⟩ := Layout.exists_name_of_kind hspelling.symm
    rw [htext] at hspelled
    have hname : name = [0x61] := latinText_injective (Except.ok.inj hspelled)
    rw [hplace] at hlocation
    have hstart : ((before.position.through gap).column : Int) = 5 :=
      (congrArg Location.column (Option.some.inj hlocation)).symm
    have hend : fresh.read.read.scanner.position =
        (before.position.through gap).advance 0x61 := by
      rw [hafter, hname, Scanner.move, Position.through_append]
      rfl
    rw [hend, Position.advance, if_neg (by decide)] at hcolumn
    simp only at hcolumn
    omega
  · rw [hkind] at hfinish
    cases hfinish

end LetLang
