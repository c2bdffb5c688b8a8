import LetLang.Sink
import LetLang.Statement.Reading

/-!
# Sessions

In a session scanners and sinks are shared: any number of parsers and iterators may draw
from one scanner, and any number of parsers may write to one sink. Every draw from a scanner
goes through the session, which keeps the position all of them share and the tokens handed
out. Objects are never removed; a name may be bound anew while others still use the object
that it named.
-/

namespace LetLang

/-- A scanner with all the tokens it has handed out so far, in order. -/
structure Tape where
  scanner : Scanner
  /-- Whether the tokens handed out may be asked for. -/
  tracing : Bool
  handed : List Token

/-- A run over the tokens of a shared scanner. It ends with the first end of the input or
the first failure that it meets. -/
structure Iterator where
  scanner : Nat
  finished : Bool

/-- A parser with the token it has in hand. -/
structure Parser where
  scanner : Nat
  sink : Nat
  current : Token

/-- What a name stands for: the kind of an object and its number. -/
inductive Handle where
  | scanner (number : Nat)
  | sink (number : Nat)
  | parser (number : Nat)
  | iterator (number : Nat)
  deriving DecidableEq, Repr

/-- The objects of a session by number, and their names. -/
structure Session where
  scanners : List Tape
  sinks : List Sink
  parsers : List Parser
  iterators : List Iterator
  names : List (String × Handle)

namespace Session

def empty : Session := ⟨[], [], [], [], []⟩

/-- Let a name stand for nothing. -/
def forget (session : Session) (name : String) : Session :=
  { session with names := session.names.filter (·.1 != name) }

def bind (session : Session) (name : String) (handle : Handle) : Session :=
  { session with names := (name, handle) :: (session.forget name).names }

def addScanner (session : Session) (name : String) (tape : Tape) : Session :=
  { session with scanners := session.scanners ++ [tape] }.bind name
    (.scanner session.scanners.length)

def addSink (session : Session) (name : String) (sink : Sink) : Session :=
  { session with sinks := session.sinks ++ [sink] }.bind name (.sink session.sinks.length)

def addParser (session : Session) (name : String) (parser : Parser) : Session :=
  { session with parsers := session.parsers ++ [parser] }.bind name
    (.parser session.parsers.length)

def addIterator (session : Session) (name : String) (iterator : Iterator) : Session :=
  { session with iterators := session.iterators ++ [iterator] }.bind name
    (.iterator session.iterators.length)

/-- The number and the state of the scanner that a name stands for. -/
def scanner? (session : Session) (name : String) : Option (Nat × Tape) :=
  match session.names.lookup name with
  | some (.scanner number) => session.scanners[number]?.map (number, ·)
  | _ => none

def sink? (session : Session) (name : String) : Option (Nat × Sink) :=
  match session.names.lookup name with
  | some (.sink number) => session.sinks[number]?.map (number, ·)
  | _ => none

def parser? (session : Session) (name : String) : Option (Nat × Parser) :=
  match session.names.lookup name with
  | some (.parser number) => session.parsers[number]?.map (number, ·)
  | _ => none

def iterator? (session : Session) (name : String) : Option (Nat × Iterator) :=
  match session.names.lookup name with
  | some (.iterator number) => session.iterators[number]?.map (number, ·)
  | _ => none

/-- Record that a scanner has moved on and handed out tokens. -/
def record (session : Session) (number : Nat) (tape : Tape) (moved : Scanner)
    (tokens : List Token) : Session :=
  { session with
    scanners := session.scanners.set number
      { tape with scanner := moved, handed := tape.handed ++ tokens } }

/-- Draw one token from a shared scanner. -/
def draw (session : Session) (number : Nat) (tape : Tape) : Session × Except Fault Token :=
  match tape.scanner.next with
  | (moved, .ok token) => (session.record number tape moved [token], .ok token)
  | (moved, .error fault) => (session.record number tape moved [], .error fault)

/-- Let an iterator draw, unless it has ended. It ends with the end of the input and with
a failure. -/
def advance (session : Session) (number : Nat) (iterator : Iterator) :
    Session × Except Fault (Option Token) :=
  if iterator.finished then (session, .ok none)
  else
    match session.scanners[iterator.scanner]? with
    | none => (session, .ok none)
    | some tape =>
        let (drawn, outcome) := session.draw iterator.scanner tape
        let finished :=
          match outcome with
          | .ok token => token.kind == .finish
          | .error _ => true
        ({ drawn with
            iterators := drawn.iterators.set number { iterator with finished := finished } },
          outcome.map some)

/-- Let a parser read a statement. Its sink takes the lines emitted even when the reading
fails, and its token in hand is where the reading stopped. -/
def read (session : Session) (number : Nat) (parser : Parser) : Session × Option Fault :=
  match session.scanners[parser.scanner]?, session.sinks[parser.sink]? with
  | some tape, some sink =>
      let reading := Statement.read tape.scanner parser.current
      let moved := session.record parser.scanner tape reading.scanner reading.tokens
      ({ moved with
          sinks := moved.sinks.set parser.sink (sink.emitAll reading.lines)
          parsers := moved.parsers.set number { parser with current := reading.current } },
        reading.fault)
  | _, _ => (session, none)

end Session

end LetLang
