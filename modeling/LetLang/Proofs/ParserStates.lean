import LetLang.Session.Command
import LetLang.Proofs.Entries
import LetLang.Proofs.Remains
import Mathlib.Logic.Function.Iterate

/-!
# States of a parser

What a parser does next is known from three things: the scanner that it draws from, the token that
it has in hand, and the sink that it writes to. Each call reads one statement and takes the three
to the next state. A session in which only this parser is called goes through these states.
-/

namespace LetLang

namespace Parser

/-- What a parser goes on from. -/
structure State where
  scanner : Scanner
  current : Token
  sink : Sink

namespace State

/-- The reading of one more statement. -/
def reading (state : State) : Reading :=
  Statement.read state.scanner state.current

/-- The state after one more statement, which may have failed. -/
def read (state : State) : State :=
  ⟨state.reading.scanner, state.reading.current, state.sink.followedBy state.reading.lines⟩

/-- What can be seen of a parser in this state. -/
def view (state : State) : Session.View :=
  ⟨state.current, state.scanner.position, state.sink.text⟩

/-- Whether a parser that has drawn its first token from a fresh scanner of a source is in this
state. -/
def Opens (state : State) (source : Source) (encoding : Decoder) : Prop :=
  (Scanner.ofSource source encoding).next = (state.scanner, .ok state.current)

/-- A statement that does not start with `let` is refused at once. -/
theorem reading_of_kind_ne {state : State} (hkind : state.current.kind ≠ .keyword .let) :
    state.reading = ⟨[], state.scanner, state.current,
      some (.diagnostic (Statement.unexpected state.scanner.source state.current .letWord))⟩ := by
  have hstep : Statement.Stage.start.step state.current = ([], .error .letWord) := if_neg hkind
  exact Statement.readFrom_of_refused hstep state.scanner

theorem read_of_kind_ne {state : State} (hkind : state.current.kind ≠ .keyword .let) :
    state.read = state := by
  have hlines : state.reading.lines = [] := by
    rw [reading_of_kind_ne hkind]
    rfl
  rw [read, hlines, Sink.followedBy_nil, reading_of_kind_ne hkind]

end State

end Parser

namespace Session

/-- Whether a name stands for a parser in this state. -/
def HasParser (session : Session) (name : String) (state : Parser.State) : Prop :=
  ∃ number parser tape, session.parser? name = some (number, parser) ∧
    session.scanners[parser.scanner]? = some tape ∧
    session.sinks[parser.sink]? = some state.sink ∧
    tape.scanner = state.scanner ∧ parser.current = state.current

/-! ## Names -/

theorem lookup_forget {session : Session} {name other : String} (hother : other ≠ name) :
    (session.forget name).names.lookup other = session.names.lookup other :=
  lookup_filter_of_ne hother session.names

@[simp]
theorem lookup_bind_self (session : Session) (name : String) (handle : Handle) :
    (session.bind name handle).names.lookup name = some handle := by
  simp [bind]

theorem lookup_bind_of_ne {session : Session} {name other : String} (hother : other ≠ name)
    (handle : Handle) :
    (session.bind name handle).names.lookup other = session.names.lookup other :=
  lookup_put_of_ne hother handle session.names

theorem scanner?_eq_some_iff {session : Session} {name : String} {number : Nat} {tape : Tape} :
    session.scanner? name = some (number, tape) ↔
      session.names.lookup name = some (.scanner number) ∧
        session.scanners[number]? = some tape := by
  rw [scanner?]
  rcases session.names.lookup name with _ | (_ | _ | _ | _) <;> grind

theorem parser?_eq_some_iff {session : Session} {name : String} {number : Nat} {parser : Parser} :
    session.parser? name = some (number, parser) ↔
      session.names.lookup name = some (.parser number) ∧
        session.parsers[number]? = some parser := by
  rw [parser?]
  rcases session.names.lookup name with _ | (_ | _ | _ | _) <;> grind

theorem iterator?_eq_some_iff {session : Session} {name : String} {number : Nat}
    {iterator : Iterator} :
    session.iterator? name = some (number, iterator) ↔
      session.names.lookup name = some (.iterator number) ∧
        session.iterators[number]? = some iterator := by
  rw [iterator?]
  rcases session.names.lookup name with _ | (_ | _ | _ | _) <;> grind

/-! ## Reading on -/

/-- What can be seen of a parser is its token, the place of its scanner and the text of its sink. -/
theorem view_eq {session : Session} {parser : Parser} {tape : Tape} {sink : Sink}
    (hscanner : session.scanners[parser.scanner]? = some tape)
    (hsink : session.sinks[parser.sink]? = some sink) :
    session.view parser = ⟨parser.current, tape.scanner.position, sink.text⟩ := by
  simp only [view, positionOf, textOf, hscanner, hsink]

/-- The reading of a statement changes the scanner, the sink and the token of the parser. -/
theorem exists_read {session : Session} {number : Nat} {parser : Parser} {tape : Tape}
    {state : Parser.State} (hparser : session.parsers[number]? = some parser)
    (hscanner : session.scanners[parser.scanner]? = some tape)
    (hsink : session.sinks[parser.sink]? = some state.sink)
    (htape : tape.scanner = state.scanner) (hcurrent : parser.current = state.current) :
    ∃ next moved, session.read number parser = (next, state.reading.fault) ∧
      next.names = session.names ∧
      next.parsers[number]? = some { parser with current := state.read.current } ∧
      next.scanners[parser.scanner]? = some moved ∧ moved.scanner = state.read.scanner ∧
      next.sinks[parser.sink]? = some state.read.sink := by
  have hreading : Statement.read tape.scanner parser.current = state.reading := by
    rw [htape, hcurrent]
    rfl
  obtain ⟨hparserBound, _⟩ := List.getElem?_eq_some_iff.mp hparser
  obtain ⟨hscannerBound, _⟩ := List.getElem?_eq_some_iff.mp hscanner
  obtain ⟨hsinkBound, _⟩ := List.getElem?_eq_some_iff.mp hsink
  rw [read, hscanner, hsink]
  simp only [hreading]
  refine ⟨_, _, rfl, rfl, List.getElem?_set_self hparserBound,
    List.getElem?_set_self hscannerBound, rfl, ?_⟩
  rw [Parser.State.read, ← Sink.emitAll_eq]
  exact List.getElem?_set_self hsinkBound

/-- A call takes a parser to the state after one more statement and answers what kept the statement
from being read, if anything did. -/
theorem HasParser.perform_parse {session : Session} {name : String} {state : Parser.State}
    (hparser : session.HasParser name state) :
    (session.perform (.parse name)).1.HasParser name state.read ∧
      (session.perform (.parse name)).2 = .parsed state.reading.fault state.read.view := by
  obtain ⟨number, parser, tape, hname, hscanner, hsink, htape, hcurrent⟩ := hparser
  obtain ⟨hlookup, hnumber⟩ := parser?_eq_some_iff.mp hname
  obtain ⟨next, moved, hread, hnames, hnext, hmoved, hplace, htaken⟩ :=
    exists_read hnumber hscanner hsink htape hcurrent
  let held : Parser := { parser with current := state.read.current }
  have hperform : session.perform (.parse name) =
      (next, .parsed state.reading.fault (next.view held)) := by
    simp only [perform, hname, hread, List.getD_eq_getElem?_getD, hnext, Option.getD_some, held]
  have hview : next.view held =
      ⟨state.read.current, moved.scanner.position, state.read.sink.text⟩ :=
    view_eq hmoved htaken
  rw [← hnames] at hlookup
  rw [hperform, hview, hplace]
  exact ⟨⟨number, held, moved, parser?_eq_some_iff.mpr ⟨hlookup, hnext⟩, hmoved, htaken, hplace,
    rfl⟩, rfl⟩

/-- Calls in a row take a parser from state to state. -/
theorem HasParser.performAll_parse {session : Session} {name : String} {state : Parser.State}
    (hparser : session.HasParser name state) (count : Nat) :
    (session.performAll (List.replicate count (.parse name))).1.HasParser name
      (Parser.State.read^[count] state) := by
  induction count generalizing session state with
  | zero => exact hparser
  | succ count ih => exact ih hparser.perform_parse.1

/-- The commands that make a parser with a scanner and a sink of its own. -/
def opening (source : Source) (encoding : Decoder) (tracing : Bool) (sink : Sink) : List Command :=
  [.openScanner "scanner" source encoding tracing, .openSink "sink" sink,
    .openParser "parser" "scanner" "sink"]

/-- A parser that can draw a first token is made with it in hand. -/
theorem hasParser_openParser {session : Session} {name scannerName sinkName : String}
    {scannerNumber sinkNumber : Nat} {tape : Tape} {state : Parser.State}
    (hscannerName : scannerName ≠ name) (hsinkName : sinkName ≠ name)
    (hscannerHandle : session.names.lookup scannerName = some (.scanner scannerNumber))
    (hsinkHandle : session.names.lookup sinkName = some (.sink sinkNumber))
    (htape : session.scanners[scannerNumber]? = some tape)
    (hsink : session.sinks[sinkNumber]? = some state.sink)
    (hdraw : tape.scanner.next = (state.scanner, .ok state.current)) :
    (session.openParser name scannerName sinkName).1.HasParser name state := by
  have hscanner : (session.forget name).scanner? scannerName = some (scannerNumber, tape) :=
    scanner?_eq_some_iff.mpr ⟨(lookup_forget hscannerName).trans hscannerHandle, htape⟩
  have hheld : (session.forget name).sink? sinkName = some (sinkNumber, state.sink) := by
    rw [sink?, lookup_forget hsinkName, hsinkHandle]
    exact Option.map_eq_some_iff.mpr ⟨state.sink, hsink, rfl⟩
  obtain ⟨hbound, _⟩ := List.getElem?_eq_some_iff.mp htape
  have hmoved : (session.scanners.set scannerNumber
      ⟨state.scanner, tape.tracing, tape.handed ++ [state.current]⟩)[scannerNumber]? =
        some ⟨state.scanner, tape.tracing, tape.handed ++ [state.current]⟩ :=
    List.getElem?_set_self hbound
  simp only [openParser, hscanner, hheld, draw, hdraw]
  exact ⟨session.parsers.length, _, _,
    parser?_eq_some_iff.mpr ⟨lookup_bind_self _ _ _, List.getElem?_concat_length⟩, hmoved, hsink,
    rfl, rfl⟩

/-- A parser is made from every source that a first token can be drawn from. -/
theorem hasParser_of_opens (session : Session) {source : Source} {encoding : Decoder}
    {state : Parser.State} (hopens : state.Opens source encoding) (tracing : Bool) :
    (session.performAll (opening source encoding tracing state.sink)).1.HasParser "parser"
      state := by
  let tape : Tape := ⟨Scanner.ofSource source encoding, tracing, []⟩
  let made := (session.addScanner "scanner" tape).addSink "sink" state.sink
  have hscanner : made.names.lookup "scanner" = some (.scanner session.scanners.length) := by
    simp only [made, addSink]
    rw [lookup_bind_of_ne (by decide)]
    exact lookup_bind_self _ _ _
  have htape : made.scanners[session.scanners.length]? = some tape := List.getElem?_concat_length
  have hsink : made.sinks[session.sinks.length]? = some state.sink := List.getElem?_concat_length
  exact hasParser_openParser (by decide) (by decide) hscanner (lookup_bind_self _ _ _) htape hsink
    hopens

end Session

end LetLang
