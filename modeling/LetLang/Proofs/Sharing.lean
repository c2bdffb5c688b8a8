import LetLang.Proofs.DrawOutcomes
import LetLang.Proofs.ParserStates

/-!
# Shared scanners

Parsers, iterators and single draws may take turns at one scanner. A command is handed what the next
draws of its scanner give, failed ones among them, and nothing is kept back between commands. So all
draws in the order of time are those of a scanner that is drawn from alone, whoever asked for
them, and the tokens among them are what the scanner has recorded. An iterator that has ended draws
no more.
-/

namespace LetLang

namespace Session

/-! ## What commands are handed -/

/-- The scanner that a command draws from. -/
def scannerOf? (session : Session) : Command → Option Nat
  | .openParser name scanner _ => ((session.forget name).scanner? scanner).map Prod.fst
  | .advance name => (session.iterator? name).map (·.2.scanner)
  | .draw name => (session.scanner? name).map Prod.fst
  | .parse name => (session.parser? name).map (·.2.scanner)
  | _ => none

/-- What an answer to a command of at most one draw says of it. -/
def Answer.draws : Answer → List (Except Fault Token)
  | .drawn token _ => token.toList.map .ok
  | .parser view => [.ok view.current]
  | .failed fault => [.error fault]
  | _ => []

/-- What a parser that is called reads, if its scanner and its sink exist. -/
def reading? (session : Session) (parser : Parser) : Option Reading :=
  match session.scanners[parser.scanner]?, session.sinks[parser.sink]? with
  | some tape, some _ => some (Statement.read tape.scanner parser.current)
  | _, _ => none

/-- What a command is handed by its scanner. The answer to a call of a parser does not tell of all
the tokens that the parser has drawn. -/
def received (session : Session) : Command → List (Except Fault Token)
  | .openParser name scanner sink => (session.openParser name scanner sink).2.draws
  | .advance name => (session.perform (.advance name)).2.draws
  | .draw name => (session.perform (.draw name)).2.draws
  | .parse name =>
      ((session.parser? name).bind (session.reading? ·.2)).toList.flatMap Reading.draws
  | _ => []

/-- What a command is handed by the scanner with a number. -/
def receivedFrom (session : Session) (number : Nat) (command : Command) :
    List (Except Fault Token) :=
  if session.scannerOf? command = some number then session.received command else []

/-- What commands are handed by the scanner with a number, in the order of time. -/
def log (session : Session) (number : Nat) : List Command → List (Except Fault Token)
  | [] => []
  | command :: rest =>
      session.receivedFrom number command ++ (session.perform command).1.log number rest

end Session

/-- A scanner that has moved on and recorded the tokens among what its draws gave. -/
def Tape.handing (tape : Tape) (draws : List (Except Fault Token)) (moved : Scanner) : Tape :=
  ⟨moved, tape.tracing, tape.handed ++ draws.filterMap Except.toOption⟩

theorem Tape.handing_nil (tape : Tape) : tape.handing [] tape.scanner = tape := by
  simp only [handing, List.filterMap_nil, List.append_nil]

theorem Tape.handing_handing (tape : Tape) (first second : List (Except Fault Token))
    (middle moved : Scanner) :
    (tape.handing first middle).handing second moved = tape.handing (first ++ second) moved := by
  simp only [handing, List.filterMap_append, List.append_assoc]

namespace Session

theorem draw_eq (session : Session) (number : Nat) (tape : Tape) :
    session.draw number tape =
      ({ session with
          scanners := session.scanners.set number
            (tape.handing [tape.scanner.next.2] tape.scanner.next.1) }, tape.scanner.next.2) := by
  rw [draw]
  rcases tape.scanner.next with ⟨moved, fault | token⟩ <;> rfl

/-- Whether an iterator that is handed this has ended. -/
def endsIterator : Except Fault Token → Bool
  | .ok token => token.kind == .finish
  | .error _ => true

theorem advance_of_finished {session : Session} {iterator : Iterator}
    (hfinished : iterator.finished = true) (number : Nat) :
    session.advance number iterator = (session, .ok none) := by
  rw [advance, if_pos hfinished]

/-- An iterator that has not ended draws once, and may end by it. -/
theorem advance_eq {session : Session} {iterator : Iterator} {tape : Tape}
    (hfinished : iterator.finished = false)
    (htape : session.scanners[iterator.scanner]? = some tape) (number : Nat) :
    session.advance number iterator =
      ({ session with
          scanners := session.scanners.set iterator.scanner
            (tape.handing [tape.scanner.next.2] tape.scanner.next.1)
          iterators := session.iterators.set number
            ⟨iterator.scanner, endsIterator tape.scanner.next.2⟩ },
        tape.scanner.next.2.map some) := by
  simp only [advance, hfinished, Bool.false_eq_true, if_false, htape, draw_eq]
  rcases tape.scanner.next.2 with fault | token <;> rfl

/-! ## What a command does to scanners and iterators -/

/-- Whether the iterators that have ended are as they were. -/
def KeepsEnded (session next : Session) : Prop :=
  ∀ (number : Nat) (iterator : Iterator), session.iterators[number]? = some iterator →
    iterator.finished = true → next.iterators[number]? = some iterator

theorem KeepsEnded.of_append {session next : Session} (more : List Iterator)
    (hiterators : next.iterators = session.iterators ++ more) : session.KeepsEnded next := by
  intro number iterator hiterator _
  obtain ⟨hnumber, _⟩ := List.getElem?_eq_some_iff.mp hiterator
  rw [hiterators, List.getElem?_append_left hnumber, hiterator]

theorem KeepsEnded.of_eq {session next : Session}
    (hiterators : next.iterators = session.iterators) : session.KeepsEnded next :=
  .of_append [] (by rw [hiterators, List.append_nil])

theorem KeepsEnded.of_set {session next : Session} {number : Nat} {iterator after : Iterator}
    (hiterator : session.iterators[number]? = some iterator)
    (hfinished : iterator.finished = false)
    (hiterators : next.iterators = session.iterators.set number after) :
    session.KeepsEnded next := by
  intro other ended hended hdone
  have hother : number ≠ other := by
    rintro rfl
    obtain rfl := Option.some.inj (hiterator.symm.trans hended)
    exact Bool.false_ne_true (hfinished.symm.trans hdone)
  rw [hiterators, List.getElem?_set_ne hother, hended]

/-- What a command does to the scanners and the iterators of a session. -/
inductive Moves (session : Session) (command : Command) (next : Session) : Prop where
  /-- Nothing is drawn, but there may be one more scanner. -/
  | still (more : List Tape) (hscanners : next.scanners = session.scanners ++ more)
      (hreceived : session.received command = []) (hended : session.KeepsEnded next)
  /-- One scanner hands out all that the command is handed. -/
  | drawn (number : Nat) (tape : Tape) (moved : Scanner)
      (hsource : session.scannerOf? command = some number)
      (htape : session.scanners[number]? = some tape)
      (hyields : tape.scanner.Yields (session.received command) moved)
      (hscanners : next.scanners =
        session.scanners.set number (tape.handing (session.received command) moved))
      (hended : session.KeepsEnded next)

namespace Moves

variable {session next : Session} {command : Command}

theorem of_eq (hscanners : next.scanners = session.scanners)
    (hiterators : next.iterators = session.iterators) (hreceived : session.received command = []) :
    session.Moves command next :=
  .still [] (by rw [hscanners, List.append_nil]) hreceived (.of_eq hiterators)

theorem of_draw {number : Nat} {tape : Tape} (hsource : session.scannerOf? command = some number)
    (htape : session.scanners[number]? = some tape)
    (hreceived : session.received command = [tape.scanner.next.2])
    (hscanners : next.scanners = session.scanners.set number
      (tape.handing [tape.scanner.next.2] tape.scanner.next.1))
    (hended : session.KeepsEnded next) : session.Moves command next := by
  refine .drawn number tape tape.scanner.next.1 hsource htape ?_ ?_ hended
  · rw [hreceived]
    exact tape.scanner.yields_next
  · rw [hreceived]
    exact hscanners

end Moves

theorem moves_draw (session : Session) (name : String) :
    session.Moves (.draw name) (session.perform (.draw name)).1 := by
  cases hname : session.scanner? name with
  | none =>
      have hperform : session.perform (.draw name) = (session, .noObject name) := by
        simp only [perform, hname]
      have hreceived : session.received (.draw name) = [] := by
        simp only [received, hperform, Answer.draws]
      rw [hperform]
      exact .of_eq rfl rfl hreceived
  | some held =>
      obtain ⟨number, tape⟩ := held
      have hsource : session.scannerOf? (.draw name) = some number := by
        rw [scannerOf?, hname]
        rfl
      have hdraw : (session.perform (.draw name)).1 = (session.draw number tape).1 ∧
          session.received (.draw name) = [tape.scanner.next.2] := by
        simp only [received, perform, hname, draw_eq]
        cases tape.scanner.next.2 <;> exact ⟨rfl, rfl⟩
      rw [hdraw.1, draw_eq]
      exact .of_draw hsource (scanner?_eq_some_iff.mp hname).2 hdraw.2 rfl (.of_eq rfl)

theorem moves_openParser (session : Session) (name scanner sink : String) :
    session.Moves (.openParser name scanner sink) (session.openParser name scanner sink).1 := by
  cases hname : (session.forget name).scanner? scanner with
  | none =>
      have hopen : session.openParser name scanner sink =
          (session.forget name, .noObject scanner) := by
        simp only [openParser, hname]
      have hreceived : session.received (.openParser name scanner sink) = [] := by
        simp only [received, hopen, Answer.draws]
      rw [hopen]
      exact .of_eq rfl rfl hreceived
  | some held =>
      obtain ⟨number, tape⟩ := held
      cases hsink : (session.forget name).sink? sink with
      | none =>
          have hopen : session.openParser name scanner sink =
              (session.forget name, .noObject sink) := by
            simp only [openParser, hname, hsink]
          have hreceived : session.received (.openParser name scanner sink) = [] := by
            simp only [received, hopen, Answer.draws]
          rw [hopen]
          exact .of_eq rfl rfl hreceived
      | some taken =>
          have hsource : session.scannerOf? (.openParser name scanner sink) = some number := by
            rw [scannerOf?, hname]
            rfl
          have hdraw :
              (session.openParser name scanner sink).1.scanners =
                  ((session.forget name).draw number tape).1.scanners ∧
                (session.openParser name scanner sink).1.iterators = session.iterators ∧
                session.received (.openParser name scanner sink) = [tape.scanner.next.2] := by
            simp only [received, openParser, hname, hsink, draw_eq]
            cases tape.scanner.next.2 <;> exact ⟨rfl, rfl, rfl⟩
          obtain ⟨hscanners, hiterators, hreceived⟩ := hdraw
          rw [draw_eq] at hscanners
          exact .of_draw hsource (scanner?_eq_some_iff.mp hname).2 hreceived hscanners
            (.of_eq hiterators)

/-- A step of an iterator changes nothing, or it draws once for an iterator that has not ended. -/
theorem perform_advance_cases (session : Session) (name : String) :
    (session.received (.advance name) = [] ∧ (session.perform (.advance name)).1 = session) ∨
      ∃ number iterator tape, session.iterator? name = some (number, iterator) ∧
        iterator.finished = false ∧ session.scanners[iterator.scanner]? = some tape ∧
        session.received (.advance name) = [tape.scanner.next.2] ∧
        (session.perform (.advance name)).1 = (session.advance number iterator).1 := by
  have hstill (answer : Answer) (hperform : session.perform (.advance name) = (session, answer))
      (hanswer : answer.draws = []) :
      session.received (.advance name) = [] ∧ (session.perform (.advance name)).1 = session := by
    rw [received, hperform]
    exact ⟨hanswer, rfl⟩
  cases hname : session.iterator? name with
  | none => exact Or.inl (hstill (.noObject name) (by simp only [perform, hname]) rfl)
  | some held =>
      obtain ⟨number, iterator⟩ := held
      cases hfinished : iterator.finished with
      | true =>
          refine Or.inl (hstill (.drawn none (session.positionOf iterator.scanner)) ?_ rfl)
          simp only [perform, hname, advance_of_finished hfinished]
      | false =>
          cases htape : session.scanners[iterator.scanner]? with
          | none =>
              refine Or.inl (hstill (.drawn none (session.positionOf iterator.scanner)) ?_ rfl)
              simp only [perform, hname, advance, hfinished, Bool.false_eq_true, if_false, htape]
          | some tape =>
              refine Or.inr ⟨number, iterator, tape, rfl, hfinished, htape, ?_⟩
              simp only [received, perform, hname, advance_eq hfinished htape]
              cases tape.scanner.next.2 <;> exact ⟨rfl, rfl⟩

theorem moves_advance (session : Session) (name : String) :
    session.Moves (.advance name) (session.perform (.advance name)).1 := by
  rcases session.perform_advance_cases name with ⟨hreceived, hsame⟩ |
    ⟨number, iterator, tape, hname, hfinished, htape, hreceived, hnext⟩
  · rw [hsame]
    exact .of_eq rfl rfl hreceived
  · have hsource : session.scannerOf? (.advance name) = some iterator.scanner := by
      rw [scannerOf?, hname]
      rfl
    obtain ⟨_, hiterator⟩ := iterator?_eq_some_iff.mp hname
    rw [hnext, advance_eq hfinished htape]
    exact .of_draw hsource htape hreceived rfl (.of_set hiterator hfinished rfl)

/-- A call of a parser whose scanner or sink is missing reads nothing. -/
theorem read_of_reading?_eq_none {session : Session} {parser : Parser}
    (hreading : session.reading? parser = none) (number : Nat) :
    (session.read number parser).1 = session := by
  rw [read]
  cases htape : session.scanners[parser.scanner]? with
  | none => rfl
  | some tape =>
      cases hsink : session.sinks[parser.sink]? with
      | none => rfl
      | some sink => simp [reading?, htape, hsink] at hreading

/-- A call of a parser moves its scanner on by the draws of the reading. -/
theorem exists_tape_of_reading? {session : Session} {parser : Parser} {reading : Reading}
    (hreading : session.reading? parser = some reading) (number : Nat) :
    ∃ tape, session.scanners[parser.scanner]? = some tape ∧
      tape.scanner.Yields reading.draws reading.scanner ∧
      (session.read number parser).1.scanners =
        session.scanners.set parser.scanner (tape.handing reading.draws reading.scanner) ∧
      (session.read number parser).1.iterators = session.iterators := by
  rw [reading?] at hreading
  rw [read]
  cases htape : session.scanners[parser.scanner]? with
  | none => simp [htape] at hreading
  | some tape =>
      cases hsink : session.sinks[parser.sink]? with
      | none => simp [htape, hsink] at hreading
      | some sink =>
          simp only [htape, hsink, Option.some.injEq] at hreading
          subst hreading
          have hyields := Statement.yields_readFrom .start tape.scanner parser.current
          refine ⟨tape, rfl, hyields, ?_, rfl⟩
          rw [Tape.handing, Reading.filterMap_draws]
          rfl

theorem moves_parse (session : Session) (name : String) :
    session.Moves (.parse name) (session.perform (.parse name)).1 := by
  cases hname : session.parser? name with
  | none =>
      have hperform : session.perform (.parse name) = (session, .noObject name) := by
        simp only [perform, hname]
      have hreceived : session.received (.parse name) = [] := by
        rw [received, hname]
        rfl
      rw [hperform]
      exact .of_eq rfl rfl hreceived
  | some held =>
      obtain ⟨number, parser⟩ := held
      have hperform : (session.perform (.parse name)).1 = (session.read number parser).1 := by
        simp only [perform, hname]
      have hreceived : session.received (.parse name) =
          (session.reading? parser).toList.flatMap Reading.draws := by
        rw [received, hname]
        rfl
      rw [hperform]
      cases hreading : session.reading? parser with
      | none =>
          rw [hreading] at hreceived
          rw [read_of_reading?_eq_none hreading]
          exact .of_eq rfl rfl hreceived
      | some reading =>
          have hsource : session.scannerOf? (.parse name) = some parser.scanner := by
            rw [scannerOf?, hname]
            rfl
          have hdraws : session.received (.parse name) = reading.draws := by
            rw [hreceived, hreading, Option.toList_some, List.flatMap_singleton]
          obtain ⟨tape, htape, hyields, hscanners, hiterators⟩ :=
            exists_tape_of_reading? hreading number
          rw [← hdraws] at hyields hscanners
          exact .drawn parser.scanner tape _ hsource htape hyields hscanners (.of_eq hiterators)

/-- Every command draws from one scanner, or it does not draw. -/
theorem moves_perform (session : Session) (command : Command) :
    session.Moves command (session.perform command).1 := by
  cases command with
  | openScanner name source encoding tracing => exact .still [_] rfl rfl (.of_eq rfl)
  | openSink name sink => exact .of_eq rfl rfl rfl
  | openParser name scanner sink => exact session.moves_openParser name scanner sink
  | iterate name scanner =>
      rw [perform]
      split
      next => exact .of_eq rfl rfl rfl
      next => exact .still [] (List.append_nil _).symm rfl (.of_append [_] rfl)
  | advance name => exact session.moves_advance name
  | draw name => exact session.moves_draw name
  | parse name => exact session.moves_parse name
  | position name | line name number | trace name | current name | emit name line | lines name =>
      rw [perform]
      split <;> exact .of_eq rfl rfl rfl

/-! ## Commands in a row -/

/-- A scanner is moved on, and records tokens, by what a command is handed by it and by nothing
else. -/
theorem tape_perform {session : Session} {number : Nat} {tape : Tape}
    (htape : session.scanners[number]? = some tape) (command : Command) :
    ∃ moved, tape.scanner.Yields (session.receivedFrom number command) moved ∧
      (session.perform command).1.scanners[number]? =
        some (tape.handing (session.receivedFrom number command) moved) := by
  obtain ⟨hnumber, _⟩ := List.getElem?_eq_some_iff.mp htape
  cases session.moves_perform command with
  | still more hscanners hreceived =>
      have hnone : session.receivedFrom number command = [] := by
        rw [receivedFrom, hreceived, ite_self]
      refine ⟨tape.scanner, ?_, ?_⟩
      · rw [hnone]
        exact .nil _
      · rw [hnone, tape.handing_nil, hscanners, List.getElem?_append_left hnumber, htape]
  | drawn other held moved hsource hheld hyields hscanners =>
      by_cases hother : other = number
      · subst hother
        obtain rfl := Option.some.inj (htape.symm.trans hheld)
        rw [receivedFrom, if_pos hsource, hscanners]
        exact ⟨moved, hyields, List.getElem?_set_self hnumber⟩
      · have hnone : session.receivedFrom number command = [] := by
          rw [receivedFrom, hsource, if_neg (fun heq => hother (Option.some.inj heq))]
        refine ⟨tape.scanner, ?_, ?_⟩
        · rw [hnone]
          exact .nil _
        · rw [hnone, tape.handing_nil, hscanners, List.getElem?_set_ne hother, htape]

theorem tape_performAll {session : Session} {number : Nat} {tape : Tape}
    (htape : session.scanners[number]? = some tape) (commands : List Command) :
    ∃ moved, tape.scanner.Yields (session.log number commands) moved ∧
      (session.performAll commands).1.scanners[number]? =
        some (tape.handing (session.log number commands) moved) := by
  induction commands generalizing session tape with
  | nil =>
      refine ⟨tape.scanner, .nil _, ?_⟩
      rw [log, tape.handing_nil]
      exact htape
  | cons command rest ih =>
      obtain ⟨middle, hfirst, hmiddle⟩ := tape_perform htape command
      obtain ⟨moved, hlater, hmoved⟩ := ih hmiddle
      refine ⟨moved, hfirst.append hlater, ?_⟩
      rw [Tape.handing_handing] at hmoved
      exact hmoved

theorem keepsEnded_performAll (session : Session) (commands : List Command) :
    session.KeepsEnded (session.performAll commands).1 := by
  induction commands generalizing session with
  | nil => exact .of_eq rfl
  | cons command rest ih =>
      intro number iterator hiterator hfinished
      have hstep : session.KeepsEnded (session.perform command).1 := by
        cases session.moves_perform command with
        | still _ _ _ hended => exact hended
        | drawn _ _ _ _ _ _ _ hended => exact hended
      exact ih _ number iterator (hstep number iterator hiterator hfinished) hfinished

/-- An iterator has ended once it was handed the end of the input or a failure. -/
theorem exists_ended {session : Session} {name : String} {number : Nat}
    (hname : session.names.lookup name = some (.iterator number))
    {outcome : Except Fault Token} (hreceived : outcome ∈ session.received (.advance name))
    (hends : endsIterator outcome = true) :
    ∃ iterator, (session.perform (.advance name)).1.iterators[number]? = some iterator ∧
      iterator.finished = true := by
  rcases session.perform_advance_cases name with ⟨hnone, _⟩ |
    ⟨other, iterator, tape, hheld, hfinished, htape, hdrawn, hnext⟩
  · rw [hnone] at hreceived
    cases hreceived
  · obtain ⟨hlookup, hiterator⟩ := iterator?_eq_some_iff.mp hheld
    obtain rfl : number = other := Handle.iterator.inj (Option.some.inj (hname.symm.trans hlookup))
    obtain ⟨hnumber, _⟩ := List.getElem?_eq_some_iff.mp hiterator
    rw [hdrawn, List.mem_singleton] at hreceived
    subst hreceived
    rw [hnext, advance_eq hfinished htape]
    exact ⟨_, List.getElem?_set_self hnumber, hends⟩

theorem perform_advance_of_finished {session : Session} {name : String} {number : Nat}
    {iterator : Iterator} (hname : session.names.lookup name = some (.iterator number))
    (hiterator : session.iterators[number]? = some iterator)
    (hfinished : iterator.finished = true) :
    session.perform (.advance name) =
      (session, .drawn none (session.positionOf iterator.scanner)) := by
  have hheld := iterator?_eq_some_iff.mpr ⟨hname, hiterator⟩
  simp only [perform, hheld, advance_of_finished hfinished]

/-- **A shared scanner hands out each token once.** Parsers, iterators and single draws may take
turns at a scanner in any order, also after failures. All that they are handed, in the order of
time, is what a scanner of the same source gives that is drawn from alone, and the scanner is where
these draws leave it. At every moment the tokens that it has recorded are those that have been
handed out. An iterator that was handed the end of the input or a failure is handed nothing any
more, whatever the others do, and asking it changes nothing. -/
theorem handed_once (session : Session) (name : String) (source : Source) (encoding : Decoder)
    (commands : List Command) :
    let number := session.scanners.length
    let opened := (session.perform (.openScanner name source encoding true)).1
    let reached := (opened.performAll commands).1
    let fresh := Scanner.ofSource source encoding
    let log := opened.log number commands
    (∀ count < log.length, log[count]? = some (fresh.afterDraws count).next.2) ∧
    reached.scanners[number]?.map Tape.scanner = some (fresh.afterDraws log.length) ∧
    (∀ other, reached.names.lookup other = some (.scanner number) →
      (reached.perform (.trace other)).2 = .tokens (log.filterMap Except.toOption)) ∧
    ∀ (iterating : String) (stepped : Nat) (outcome : Except Fault Token),
      reached.names.lookup iterating = some (.iterator stepped) →
      outcome ∈ reached.received (.advance iterating) → endsIterator outcome = true →
      ∀ (later : List Command) (other : String),
        let last := ((reached.perform (.advance iterating)).1.performAll later).1
        last.names.lookup other = some (.iterator stepped) →
        ∃ position, last.perform (.advance other) = (last, .drawn none position) := by
  intro number opened reached fresh log
  have htape : opened.scanners[number]? = some ⟨fresh, true, []⟩ := List.getElem?_concat_length
  obtain ⟨moved, hyields, hmoved⟩ := tape_performAll htape commands
  refine ⟨hyields.getElem?, ?_, fun other hother => ?_, ?_⟩
  · rw [hmoved, hyields.eq_afterDraws]
    rfl
  · have hheld := scanner?_eq_some_iff.mpr ⟨hother, hmoved⟩
    simp only [perform, hheld]
    rfl
  · intro iterating stepped outcome hiterating hreceived hends later other last hother
    obtain ⟨iterator, hiterator, hfinished⟩ := exists_ended hiterating hreceived hends
    have hkept := keepsEnded_performAll _ later stepped iterator hiterator hfinished
    exact ⟨_, perform_advance_of_finished hother hkept hfinished⟩

/-- A parser, an iterator and single draws at one scanner, under a name that no text can be decoded
by. The parser is stopped by an empty literal, a draw fails on a literal and leaves its closing
quote for the next one, and the iterator meets the end. -/
theorem handed_once_undecoded :
    let source : Source := ⟨"shared", [0x6C, 0x65, 0x74, 0x20, 0x61, 0x20, 0x22, 0x22, 0x20, 0x62,
      0x20, 0x22, 0x71, 0x22]⟩
    let commands : List Command := [.openSink "sink" (.list []),
      .openParser "parser" "scanner" "sink", .iterate "tokens" "scanner", .parse "parser",
      .advance "tokens", .draw "scanner", .parse "parser", .draw "scanner"]
    let number := empty.scanners.length
    let opened := (empty.perform (.openScanner "scanner" source "hex" true)).1
    let reached := (opened.performAll commands).1
    let fresh := Scanner.ofSource source "hex"
    let log := opened.log number commands
    let later : List Command := [.draw "scanner", .iterate "others" "scanner", .advance "others"]
    let last := ((reached.perform (.advance "tokens")).1.performAll later).1
    log.map (fun outcome => outcome.toOption.map Token.kind) =
        [some (.keyword .let), some .identifier, some .string, some .identifier, none,
          some .string] ∧
      (∀ count < log.length, log[count]? = some (fresh.afterDraws count).next.2) ∧
      reached.names.lookup "scanner" = some (.scanner number) ∧
      (reached.perform (.trace "scanner")).2 = .tokens (log.filterMap Except.toOption) ∧
      reached.names.lookup "tokens" = some (.iterator 0) ∧
      (reached.received (.advance "tokens")).any endsIterator = true ∧
      last.names.lookup "tokens" = some (.iterator 0) ∧
      ∃ position, last.perform (.advance "tokens") = (last, .drawn none position) := by
  intro source commands number opened reached fresh log later last
  have hscanner : reached.names.lookup "scanner" = some (.scanner number) := by decide +kernel
  have hiterator : reached.names.lookup "tokens" = some (.iterator 0) := by decide +kernel
  have hends : (reached.received (.advance "tokens")).any endsIterator = true := by decide +kernel
  have hlast : last.names.lookup "tokens" = some (.iterator 0) := by decide +kernel
  obtain ⟨outcome, hreceived, houtcome⟩ := List.any_eq_true.mp hends
  have hkinds : log.map (fun outcome => outcome.toOption.map Token.kind) =
      [some (.keyword .let), some .identifier, some .string, some .identifier, none,
        some .string] := by decide +kernel
  have honce := handed_once empty "scanner" source "hex" commands
  extract_lets at honce
  obtain ⟨hlog, _, htrace, hnone⟩ := honce
  have hstays := hnone "tokens" 0 outcome hiterator hreceived houtcome later "tokens"
  extract_lets at hstays
  exact ⟨hkinds, hlog, hscanner, htrace "scanner" hscanner, hiterator, hends, hlast,
    hstays hlast⟩

end Session

end LetLang
