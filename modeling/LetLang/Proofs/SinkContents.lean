import LetLang.Compilation
import LetLang.Proofs.Sharing

/-!
# What sinks take

A sink takes the lines that commands write to it and gives none back, whatever else goes on in the
session. The lines do not depend on the sink: nothing that is drawn, read or refused is decided by
what sinks hold, or by whether they keep lines apart or write them on as text. So two sinks in the
same place of the same commands take the same lines, and as text these are the same.
-/

namespace LetLang

namespace Session

/-! ## What commands write -/

/-- The lines that a command writes to the sink with a number. -/
def writtenTo (session : Session) (number : Nat) : Command → List String
  | .emit name line =>
      if (session.sink? name).map Prod.fst = some number then [line] else []
  | .parse name =>
      match session.parser? name with
      | some (_, parser) =>
          if parser.sink = number then (session.reading? parser).toList.flatMap Reading.lines
          else []
      | none => []
  | _ => []

/-- The lines that commands write to the sink with a number, in the order of time. -/
def transcript (session : Session) (number : Nat) : List Command → List String
  | [] => []
  | command :: rest =>
      session.writtenTo number command ++ (session.perform command).1.transcript number rest

theorem sink?_eq_some_iff {session : Session} {name : String} {number : Nat} {sink : Sink} :
    session.sink? name = some (number, sink) ↔
      session.names.lookup name = some (.sink number) ∧ session.sinks[number]? = some sink := by
  rw [sink?]
  rcases session.names.lookup name with _ | (_ | _ | _ | _) <;> grind

/-- What a command does to the sinks of a session. -/
inductive Writes (session : Session) (command : Command) (next : Session) : Prop where
  /-- Nothing is written, but there may be one more sink. -/
  | still (more : List Sink) (hsinks : next.sinks = session.sinks ++ more)
      (hwritten : ∀ number, session.writtenTo number command = [])
  /-- One sink takes all that the command writes. -/
  | lines (number : Nat) (sink : Sink) (lines : List String)
      (hsink : session.sinks[number]? = some sink)
      (hsinks : next.sinks = session.sinks.set number (sink.followedBy lines))
      (hwritten : ∀ other, session.writtenTo other command = if number = other then lines else [])

theorem Writes.of_eq {session next : Session} {command : Command}
    (hsinks : next.sinks = session.sinks)
    (hwritten : ∀ number, session.writtenTo number command = []) :
    session.Writes command next :=
  .still [] (by rw [hsinks, List.append_nil]) hwritten

theorem sinks_draw (session : Session) (number : Nat) (tape : Tape) :
    (session.draw number tape).1.sinks = session.sinks := by
  rw [draw_eq]

theorem sinks_openParser (session : Session) (name scanner sink : String) :
    (session.openParser name scanner sink).1.sinks = session.sinks := by
  simp only [openParser]
  split
  next => rfl
  next =>
    split
    next => rfl
    next =>
      split
      next hdraw => exact (congrArg (·.1.sinks) hdraw).symm.trans (sinks_draw ..)
      next hdraw => exact (congrArg (·.1.sinks) hdraw).symm.trans (sinks_draw ..)

theorem sinks_advance (session : Session) (number : Nat) (iterator : Iterator) :
    (session.advance number iterator).1.sinks = session.sinks := by
  rw [advance]
  split
  next => rfl
  next =>
    split
    next => rfl
    next => exact sinks_draw ..

theorem writes_emit (session : Session) (name line : String) :
    session.Writes (.emit name line) (session.perform (.emit name line)).1 := by
  cases hname : session.sink? name with
  | none =>
      refine .of_eq ?_ fun number => ?_
      · simp only [perform, hname]
      · simp [writtenTo, hname]
  | some held =>
      obtain ⟨number, sink⟩ := held
      have hemit : sink.emit line = sink.followedBy [line] := sink.emitAll_eq [line]
      refine .lines number sink [line] (sink?_eq_some_iff.mp hname).2 ?_ fun other => ?_
      · simp only [perform, hname, hemit]
      · simp [writtenTo, hname]

theorem writes_parse (session : Session) (name : String) :
    session.Writes (.parse name) (session.perform (.parse name)).1 := by
  cases hname : session.parser? name with
  | none =>
      refine .of_eq ?_ fun number => ?_
      · simp only [perform, hname]
      · simp only [writtenTo, hname]
  | some held =>
      obtain ⟨number, parser⟩ := held
      have hperform : (session.perform (.parse name)).1 = (session.read number parser).1 := by
        simp only [perform, hname]
      have hwritten (other : Nat) : session.writtenTo other (.parse name) =
          if parser.sink = other then (session.reading? parser).toList.flatMap Reading.lines
          else [] := by
        simp only [writtenTo, hname]
      rw [hperform]
      cases hreading : session.reading? parser with
      | none =>
          rw [hreading] at hwritten
          refine .of_eq (by rw [read_of_reading?_eq_none hreading]) fun other => ?_
          rw [hwritten, Option.toList_none, List.flatMap_nil, ite_self]
      | some reading =>
          rw [hreading, Option.toList_some, List.flatMap_singleton] at hwritten
          rw [reading?] at hreading
          split at hreading
          next tape sink htape hsink =>
            obtain rfl := Option.some.inj hreading
            refine .lines parser.sink sink _ hsink ?_ hwritten
            rw [read, htape, hsink, ← sink.emitAll_eq]
            rfl
          next => cases hreading

/-- Every command writes to one sink, or it does not write. -/
theorem writes_perform (session : Session) (command : Command) :
    session.Writes command (session.perform command).1 := by
  cases command with
  | openScanner name source encoding tracing => exact .of_eq rfl fun _ => rfl
  | openSink name sink => exact .still [sink] rfl fun _ => rfl
  | openParser name scanner sink =>
      exact .of_eq (session.sinks_openParser name scanner sink) fun _ => rfl
  | emit name line => exact session.writes_emit name line
  | parse name => exact session.writes_parse name
  | advance name =>
      refine .of_eq ?_ fun _ => rfl
      rw [perform]
      split
      next => rfl
      next number iterator _ =>
        have hsinks := session.sinks_advance number iterator
        split <;> simpa [*] using hsinks
  | draw name =>
      refine .of_eq ?_ fun _ => rfl
      rw [perform]
      split
      next => rfl
      next number tape _ =>
        have hsinks := session.sinks_draw number tape
        split <;> simpa [*] using hsinks
  | iterate name scanner | position name | line name number | trace name | current name
  | lines name =>
      rw [perform]
      split <;> exact .of_eq rfl fun _ => rfl

/-- A sink takes the lines that a command writes to it after all that it has taken. -/
theorem sink_perform {session : Session} {number : Nat} {sink : Sink}
    (hsink : session.sinks[number]? = some sink) (command : Command) :
    (session.perform command).1.sinks[number]? =
      some (sink.followedBy (session.writtenTo number command)) := by
  obtain ⟨hnumber, _⟩ := List.getElem?_eq_some_iff.mp hsink
  cases session.writes_perform command with
  | still more hsinks hwritten =>
      rw [hwritten, sink.followedBy_nil, hsinks, List.getElem?_append_left hnumber, hsink]
  | lines other held lines hheld hsinks hwritten =>
      rw [hwritten, hsinks]
      by_cases hother : other = number
      · subst hother
        obtain rfl := Option.some.inj (hsink.symm.trans hheld)
        rw [if_pos rfl, List.getElem?_set_self hnumber]
      · rw [if_neg hother, sink.followedBy_nil, List.getElem?_set_ne hother, hsink]

theorem sink_performAll {session : Session} {number : Nat} {sink : Sink}
    (hsink : session.sinks[number]? = some sink) (commands : List Command) :
    (session.performAll commands).1.sinks[number]? =
      some (sink.followedBy (session.transcript number commands)) := by
  induction commands generalizing session sink with
  | nil => rw [transcript, sink.followedBy_nil, performAll, hsink]
  | cons command rest ih =>
      have hlater := ih (sink_perform hsink command)
      rw [Sink.followedBy_followedBy] at hlater
      exact hlater

/-! ## Other sinks in their place -/

/-- A session with other sinks under the same numbers. -/
def withSinks (session : Session) (sinks : List Sink) : Session :=
  { session with sinks := sinks }

/-- Whether two sessions differ in what their sinks are and hold at most. -/
def Alike (first second : Session) : Prop :=
  ∃ sinks, sinks.length = first.sinks.length ∧ second = first.withSinks sinks

/-- An answer but for the text that a sink holds. -/
def Answer.unwritten : Answer → Answer
  | .parser view => .parser { view with written := "" }
  | .parsed fault view => .parsed fault { view with written := "" }
  | .written _ => .written ""
  | answer => answer

theorem alike_addSink (session : Session) (name : String) (held other : Sink) :
    (session.addSink name held).Alike (session.addSink name other) :=
  ⟨session.sinks ++ [other], by simp [addSink, bind], rfl⟩

section Alike

variable {session : Session} {sinks : List Sink}

/-- The same names stand for sinks, under the same numbers. -/
theorem sink?_withSinks_cases (hlength : sinks.length = session.sinks.length) (name : String) :
    session.sink? name = none ∧ (session.withSinks sinks).sink? name = none ∨
      ∃ number held other, session.sink? name = some (number, held) ∧
        (session.withSinks sinks).sink? name = some (number, other) := by
  cases hname : session.sink? name with
  | some found =>
      obtain ⟨number, held⟩ := found
      obtain ⟨hlookup, hheld⟩ := sink?_eq_some_iff.mp hname
      obtain ⟨hnumber, _⟩ := List.getElem?_eq_some_iff.mp hheld
      rw [← hlength] at hnumber
      exact Or.inr ⟨number, held, _, rfl,
        sink?_eq_some_iff.mpr ⟨hlookup, List.getElem?_eq_getElem hnumber⟩⟩
  | none =>
      left
      refine ⟨rfl, Option.eq_none_iff_forall_ne_some.mpr fun found hfound => ?_⟩
      obtain ⟨number, other⟩ := found
      obtain ⟨hlookup, hother⟩ := sink?_eq_some_iff.mp hfound
      obtain ⟨hnumber, _⟩ := List.getElem?_eq_some_iff.mp hother
      have hheld := List.getElem?_eq_getElem (hnumber.trans_eq hlength)
      have hfound : session.sink? name = some (number, _) :=
        sink?_eq_some_iff.mpr ⟨hlookup, hheld⟩
      cases hname.symm.trans hfound

theorem draw_withSinks (number : Nat) (tape : Tape) :
    (session.withSinks sinks).draw number tape =
      ((session.draw number tape).1.withSinks sinks, (session.draw number tape).2) := by
  rw [draw_eq, draw_eq]
  rfl

theorem advance_withSinks (number : Nat) (iterator : Iterator) :
    (session.withSinks sinks).advance number iterator =
      ((session.advance number iterator).1.withSinks sinks,
        (session.advance number iterator).2) := by
  have htapes : (session.withSinks sinks).scanners = session.scanners := rfl
  rw [advance, advance, htapes]
  split
  next => rfl
  next =>
    split
    next => rfl
    next =>
      rw [draw_withSinks]
      rfl

/-- Whether a command that is carried out in two sessions does the same to them and is answered in
the same way, up to what sinks are and hold. -/
structure Agree (first second : Session × Answer) : Prop where
  sessions : first.1.Alike second.1
  answers : first.2.unwritten = second.2.unwritten

/-- A parser is made for any sink. -/
theorem agree_openParser (hlength : sinks.length = session.sinks.length)
    (name scanner sink : String) :
    Agree (session.openParser name scanner sink)
      ((session.withSinks sinks).openParser name scanner sink) := by
  have hforget : (session.withSinks sinks).forget name = (session.forget name).withSinks sinks :=
    rfl
  have hscanner : ((session.forget name).withSinks sinks).scanner? scanner =
      (session.forget name).scanner? scanner := rfl
  have hlength : sinks.length = (session.forget name).sinks.length := hlength
  simp only [openParser, hforget, hscanner]
  cases (session.forget name).scanner? scanner with
  | none => exact ⟨⟨sinks, hlength, rfl⟩, rfl⟩
  | some found =>
      obtain ⟨number, tape⟩ := found
      rcases sink?_withSinks_cases hlength sink with ⟨hnone, hother⟩ |
        ⟨place, held, other, hheld, hother⟩
      · simp only [hnone, hother]
        exact ⟨⟨sinks, hlength, rfl⟩, rfl⟩
      · have hnext : sinks.length = ((session.forget name).draw number tape).1.sinks.length := by
          rw [sinks_draw, hlength]
        simp only [hheld, hother, draw_withSinks]
        generalize (session.forget name).draw number tape = drawn at hnext ⊢
        rcases drawn with ⟨next, fault | token⟩ <;> exact ⟨⟨sinks, hnext, rfl⟩, rfl⟩

theorem reading?_withSinks (hlength : sinks.length = session.sinks.length) (parser : Parser) :
    (session.withSinks sinks).reading? parser = session.reading? parser := by
  have htapes : (session.withSinks sinks).scanners = session.scanners := rfl
  have hsinks : (session.withSinks sinks).sinks = sinks := rfl
  rw [reading?, reading?, htapes, hsinks]
  rcases Nat.lt_or_ge parser.sink session.sinks.length with hbound | hbound
  · rw [List.getElem?_eq_getElem hbound, List.getElem?_eq_getElem (hbound.trans_eq hlength.symm)]
    cases session.scanners[parser.scanner]? <;> rfl
  · rw [List.getElem?_eq_none hbound, List.getElem?_eq_none (hlength.trans_le hbound)]

theorem exists_read_withSinks (hlength : sinks.length = session.sinks.length) (number : Nat)
    (parser : Parser) :
    ∃ others, others.length = (session.read number parser).1.sinks.length ∧
      (session.withSinks sinks).read number parser =
        ((session.read number parser).1.withSinks others, (session.read number parser).2) := by
  have htapes : (session.withSinks sinks).scanners = session.scanners := rfl
  have hsinks : (session.withSinks sinks).sinks = sinks := rfl
  rw [read, read, htapes, hsinks]
  cases session.scanners[parser.scanner]? with
  | none => exact ⟨sinks, hlength, rfl⟩
  | some tape =>
      rcases Nat.lt_or_ge parser.sink session.sinks.length with hbound | hbound
      · rw [List.getElem?_eq_getElem hbound,
          List.getElem?_eq_getElem (hbound.trans_eq hlength.symm)]
        refine ⟨_, ?_, rfl⟩
        simp only [record, List.length_set]
        exact hlength
      · rw [List.getElem?_eq_none hbound, List.getElem?_eq_none (hlength.trans_le hbound)]
        exact ⟨sinks, hlength, rfl⟩

/-- Only what a sink is asked for shows what it is. -/
theorem agree_perform (hlength : sinks.length = session.sinks.length) {command : Command}
    (hcommand : ∀ name, command ≠ .lines name) :
    Agree (session.perform command) ((session.withSinks sinks).perform command) := by
  have hscanner (name : String) :
      (session.withSinks sinks).scanner? name = session.scanner? name := rfl
  have hiterator (name : String) :
      (session.withSinks sinks).iterator? name = session.iterator? name := rfl
  have hparser (name : String) :
      (session.withSinks sinks).parser? name = session.parser? name := rfl
  cases command with
  | openScanner name source encoding tracing => exact ⟨⟨sinks, hlength, rfl⟩, rfl⟩
  | openSink name sink =>
      -- the new sink has the same number in both sessions
      refine ⟨⟨sinks ++ [sink], by simp [perform, addSink, bind, hlength], ?_⟩, rfl⟩
      simp only [perform, addSink]
      rw [withSinks, withSinks, hlength]
      rfl
  | openParser name scanner sink => exact agree_openParser hlength name scanner sink
  | emit name line =>
      rcases sink?_withSinks_cases hlength name with ⟨hnone, hother⟩ |
        ⟨number, held, other, hheld, hother⟩
      · simp only [perform, hnone, hother]
        exact ⟨⟨sinks, hlength, rfl⟩, rfl⟩
      · simp only [perform, hheld, hother]
        refine ⟨⟨sinks.set number (other.emit line), ?_, rfl⟩, rfl⟩
        simp only [List.length_set, hlength]
  | parse name =>
      simp only [perform, hparser]
      rcases session.parser? name with _ | ⟨number, parser⟩
      · exact ⟨⟨sinks, hlength, rfl⟩, rfl⟩
      · obtain ⟨others, hothers, hread⟩ := exists_read_withSinks hlength number parser
        simp only [hread]
        exact ⟨⟨others, hothers, rfl⟩, rfl⟩
  | advance name =>
      simp only [perform, hiterator]
      rcases session.iterator? name with _ | ⟨number, iterator⟩
      · exact ⟨⟨sinks, hlength, rfl⟩, rfl⟩
      · have hnext : sinks.length = (session.advance number iterator).1.sinks.length := by
          rw [sinks_advance, hlength]
        simp only [advance_withSinks]
        generalize session.advance number iterator = drawn at hnext ⊢
        rcases drawn with ⟨next, fault | token⟩ <;> exact ⟨⟨sinks, hnext, rfl⟩, rfl⟩
  | draw name =>
      simp only [perform, hscanner]
      rcases session.scanner? name with _ | ⟨number, tape⟩
      · exact ⟨⟨sinks, hlength, rfl⟩, rfl⟩
      · have hnext : sinks.length = (session.draw number tape).1.sinks.length := by
          rw [sinks_draw, hlength]
        simp only [draw_withSinks]
        generalize session.draw number tape = drawn at hnext ⊢
        rcases drawn with ⟨next, fault | token⟩ <;> exact ⟨⟨sinks, hnext, rfl⟩, rfl⟩
  | iterate name scanner =>
      simp only [perform, hscanner]
      rcases session.scanner? scanner with _ | ⟨number, tape⟩ <;> exact ⟨⟨sinks, hlength, rfl⟩, rfl⟩
  | position name | line name number | trace name =>
      simp only [perform, hscanner]
      rcases session.scanner? name with _ | ⟨number, tape⟩ <;> exact ⟨⟨sinks, hlength, rfl⟩, rfl⟩
  | current name =>
      simp only [perform, hparser]
      rcases session.parser? name with _ | ⟨number, parser⟩ <;> exact ⟨⟨sinks, hlength, rfl⟩, rfl⟩
  | lines name => exact absurd rfl (hcommand name)

theorem writtenTo_withSinks (hlength : sinks.length = session.sinks.length) (number : Nat)
    (command : Command) :
    (session.withSinks sinks).writtenTo number command = session.writtenTo number command := by
  cases command with
  | emit name line =>
      rcases sink?_withSinks_cases hlength name with ⟨hnone, hother⟩ |
        ⟨place, held, other, hheld, hother⟩
      · simp only [writtenTo, hnone, hother]
      · simp only [writtenTo, hheld, hother, Option.map_some]
  | parse name =>
      have hparser : (session.withSinks sinks).parser? name = session.parser? name := rfl
      simp only [writtenTo, hparser, reading?_withSinks hlength]
  | _ => rfl

end Alike

theorem perform_lines (session : Session) (name : String) :
    (session.perform (.lines name)).1 = session := by
  rw [perform]
  split <;> rfl

namespace Alike

variable {first second : Session}

theorem agree (halike : first.Alike second) {command : Command}
    (hcommand : ∀ name, command ≠ .lines name) :
    Agree (first.perform command) (second.perform command) := by
  obtain ⟨sinks, hlength, rfl⟩ := halike
  exact agree_perform hlength hcommand

theorem perform (halike : first.Alike second) (command : Command) :
    (first.perform command).1.Alike (second.perform command).1 := by
  by_cases hcommand : ∃ name, command = .lines name
  · -- the answers differ, but nothing is done
    obtain ⟨name, rfl⟩ := hcommand
    rwa [perform_lines, perform_lines]
  · exact (halike.agree (not_exists.mp hcommand)).sessions

theorem writtenTo_eq (halike : first.Alike second) (number : Nat) (command : Command) :
    second.writtenTo number command = first.writtenTo number command := by
  obtain ⟨sinks, hlength, rfl⟩ := halike
  exact writtenTo_withSinks hlength number command

theorem performAll (halike : first.Alike second) (commands : List Command) :
    (first.performAll commands).1.Alike (second.performAll commands).1 := by
  induction commands generalizing first second with
  | nil => exact halike
  | cons command rest ih => exact ih (halike.perform command)

theorem transcript_eq (halike : first.Alike second) (number : Nat) (commands : List Command) :
    second.transcript number commands = first.transcript number commands := by
  induction commands generalizing first second with
  | nil => rfl
  | cons command rest ih =>
      rw [transcript, transcript, halike.writtenTo_eq, ih (halike.perform command)]

end Alike

/-- A parser that goes on from the same scanner and the same token reads the same statement and
stops in the same way, whatever its sink is and holds. -/
theorem HasParser.agree_parse {first second : Session} {one another : String}
    {state : Parser.State} {sink : Sink} (hfirst : first.HasParser one state)
    (hsecond : second.HasParser another { state with sink := sink }) :
    (first.perform (.parse one)).1.HasParser one state.read ∧
      (second.perform (.parse another)).1.HasParser another
        { state.read with sink := sink.followedBy state.reading.lines } ∧
      (first.perform (.parse one)).2.unwritten =
        (second.perform (.parse another)).2.unwritten := by
  obtain ⟨hread, hanswer⟩ := hfirst.perform_parse
  obtain ⟨hother, hsame⟩ := hsecond.perform_parse
  refine ⟨hread, hother, ?_⟩
  rw [hanswer, hsame]
  rfl

/-- **Sinks are append-only and can be put in each other's place.** A sink is opened, and then any
commands are carried out: lines are emitted, and parsers of any sources read statements or fail, for
this sink and for others. Whatever the sink is and holds, it takes the lines that are written to
it, in the order of time, after all that it held. So a stream receives the text that a list of the
lines has, which is also the text of a result with these lines. One more command puts lines after
what each sink holds, and its answer does not depend on the sink but for the text that the answer
shows. A parser reads and fails in the same way, wherever it writes to. -/
theorem sinks_interchangeable (session : Session) (name : String) (commands : List Command) :
    let number := session.sinks.length
    let opened := fun held : Sink => (session.perform (.openSink name held)).1
    let reached := fun held : Sink => ((opened held).performAll commands).1
    let lines := (opened (.list [])).transcript number commands
    (∀ held : Sink, (opened held).transcript number commands = lines ∧
      (reached held).sinks[number]? = some (held.followedBy lines)) ∧
    (reached (.list [])).sinks[number]? = some (.list lines) ∧
    (reached (.stream "")).sinks[number]? = some (.stream (joinLines lines)) ∧
    (Sink.list lines).text = joinLines lines ∧
    (∀ file tokens, (Result.mk file lines tokens).text = joinLines lines) ∧
    (∀ (held : Sink) (command : Command) (other : Nat) (sink : Sink),
      (reached held).sinks[other]? = some sink → ∃ more,
        ((reached held).perform command).1.sinks[other]? = some (sink.followedBy more)) ∧
    (∀ (held other : Sink) (command : Command), (∀ asked, command ≠ .lines asked) →
      ((reached held).perform command).2.unwritten =
        ((reached other).perform command).2.unwritten) ∧
    ∀ (first second : Session) (one another : String) (state : Parser.State) (sink : Sink),
      first.HasParser one state → second.HasParser another { state with sink := sink } →
      (first.perform (.parse one)).1.HasParser one state.read ∧
        (second.perform (.parse another)).1.HasParser another
          { state.read with sink := sink.followedBy state.reading.lines } ∧
        (first.perform (.parse one)).2.unwritten =
          (second.perform (.parse another)).2.unwritten := by
  intro number opened reached lines
  have halike (held other : Sink) : (opened held).Alike (opened other) :=
    session.alike_addSink name held other
  have htranscript (held : Sink) : (opened held).transcript number commands = lines :=
    (halike (.list []) held).transcript_eq number commands
  have htaken (held : Sink) : (reached held).sinks[number]? = some (held.followedBy lines) := by
    have hheld : (opened held).sinks[number]? = some held := List.getElem?_concat_length
    rw [← htranscript held]
    exact sink_performAll hheld commands
  have htext := textOfLines_eq_joinLines lines
  refine ⟨?_, ?_, ?_, htext, fun _ _ => htext, ?_, ?_, ?_⟩
  · intro held
    exact ⟨htranscript held, htaken held⟩
  · rw [htaken, Sink.followedBy, List.nil_append]
  · rw [htaken, Sink.followedBy, String.empty_append, htext]
  · intro held command other sink hsink
    exact ⟨_, sink_perform hsink command⟩
  · intro held other command hcommand
    exact (((halike held other).performAll commands).agree hcommand).answers
  · intro first second one another state sink hfirst hsecond
    exact hfirst.agree_parse hsecond

/-- Empty lines and lines that contain line feeds around a statement without its semicolon, and a
parser that is called again after its failure. -/
theorem sinks_interchangeable_failed_parse :
    let source : Source := ⟨"partial", [0x6C, 0x65, 0x74, 0x20, 0x7A, 0x3D, 0x34, 0x2D, 0x71]⟩
    let commands : List Command := [.emit "sink" "", .emit "sink" "a\nb",
      .openScanner "scanner" source "utf-8" false, .openParser "parser" "scanner" "sink",
      .parse "parser", .parse "parser", .emit "sink" (Instruction.push "").line]
    let opened := fun held : Sink => (empty.perform (.openSink "sink" held)).1
    let reached := fun held : Sink => ((opened held).performAll commands).1
    let lines := ["", "a\nb", "push 4", "push q", "sub", "pop z", "push "]
    let first : Token := ⟨.keyword .let, "let", some ⟨"partial", 1, 1⟩⟩
    let fresh : Parser.State := ⟨(Scanner.ofSource source "utf-8").next.1, first, .list ["held"]⟩
    let kept := (empty.performAll (opening source "utf-8" false (.list ["held"]))).1
    let streamed := (empty.performAll (opening source "utf-8" true (.stream ""))).1
    (reached (.list [])).sinks[0]? = some (.list lines) ∧
      (reached (.stream "")).sinks[0]? =
        some (.stream "\na\nb\npush 4\npush q\nsub\npop z\npush \n") ∧
      (∃ more, ((reached (.list [])).perform (.parse "parser")).1.sinks[0]? =
        some (.list (lines ++ more))) ∧
      ((reached (.list [])).perform (.parse "parser")).2.unwritten =
        ((reached (.stream "")).perform (.parse "parser")).2.unwritten ∧
      kept.HasParser "parser" fresh ∧
      streamed.HasParser "parser" { fresh with sink := .stream "" } ∧
      (kept.perform (.parse "parser")).1.HasParser "parser" fresh.read ∧
      (kept.perform (.parse "parser")).2.unwritten =
        (streamed.perform (.parse "parser")).2.unwritten := by
  intro source commands opened reached lines first fresh kept streamed
  have hopens : fresh.Opens source "utf-8" := Scanner.next_eq_of_map (by decide +kernel)
  have hother : Parser.State.Opens { fresh with sink := .stream "" } source "utf-8" := hopens
  have hkept := hasParser_of_opens .empty hopens false
  have hstreamed := hasParser_of_opens .empty hother true
  have hlines : (opened (.list [])).transcript 0 commands = lines := by decide +kernel
  have htext : joinLines lines = "\na\nb\npush 4\npush q\nsub\npop z\npush \n" := by
    decide +kernel
  have hsinks := sinks_interchangeable empty "sink" commands
  extract_lets number at hsinks
  obtain ⟨_, hlist, hstream, _, _, hmore, hanswers, hparsers⟩ := hsinks
  change (reached (.list [])).sinks[0]? =
    some (.list ((opened (.list [])).transcript 0 commands)) at hlist
  change (reached (.stream "")).sinks[0]? =
    some (.stream (joinLines ((opened (.list [])).transcript 0 commands))) at hstream
  rw [hlines] at hlist hstream
  rw [htext] at hstream
  obtain ⟨hread, _, hparsed⟩ := hparsers _ _ "parser" "parser" fresh (.stream "") hkept hstreamed
  exact ⟨hlist, hstream, hmore (.list []) (.parse "parser") 0 _ hlist,
    hanswers (.list []) (.stream "") (.parse "parser") nofun, hkept, hstreamed, hread, hparsed⟩

end Session

end LetLang
