import LetLang.Session.Basic

/-!
# Commands of a session

A session is carried on by commands that name its objects. Each command is answered; one
that names an object that does not exist, or one of another kind, changes nothing and is
answered by that name.
-/

namespace LetLang.Session

/-- What can be asked of a session. -/
inductive Command where
  | openScanner (name : String) (source : Source) (encoding : Decoder) (tracing : Bool)
  | openSink (name : String) (sink : Sink)
  /-- Make a parser, which draws its first token. -/
  | openParser (name scanner sink : String)
  /-- Make an iterator, which draws nothing yet. -/
  | iterate (name scanner : String)
  | advance (name : String)
  | draw (name : String)
  | position (name : String)
  | line (name : String) (number : Int)
  | trace (name : String)
  | parse (name : String)
  | current (name : String)
  | emit (name : String) (line : String)
  | lines (name : String)

/-- What can be seen of a parser. -/
structure View where
  current : Token
  position : Position
  written : String

/-- The answer to a command. -/
inductive Answer where
  /-- No object of the kind asked for has this name. -/
  | noObject (name : String)
  | failed (fault : Fault)
  | position (position : Position)
  | drawn (token : Option Token) (position : Position)
  | line (text : String)
  | tokens (tokens : List Token)
  | parser (view : View)
  | parsed (fault : Option Fault) (view : View)
  | written (text : String)
  | lines (lines : List String)

def positionOf (session : Session) (number : Nat) : Position :=
  match session.scanners[number]? with
  | some tape => tape.scanner.position
  | none => .start

def textOf (session : Session) (number : Nat) : String :=
  match session.sinks[number]? with
  | some sink => sink.text
  | none => ""

def view (session : Session) (parser : Parser) : View :=
  ⟨parser.current, session.positionOf parser.scanner, session.textOf parser.sink⟩

/-- Make a parser under a name that stands for nothing until the first token is drawn. -/
def openParser (session : Session) (name scanner sink : String) : Session × Answer :=
  let session := session.forget name
  match session.scanner? scanner with
  | none => (session, .noObject scanner)
  | some (scannerNumber, tape) =>
      match session.sink? sink with
      | none => (session, .noObject sink)
      | some (sinkNumber, _) =>
          match session.draw scannerNumber tape with
          | (session, .error fault) => (session, .failed fault)
          | (session, .ok token) =>
              let parser : Parser := ⟨scannerNumber, sinkNumber, token⟩
              let session := session.addParser name parser
              (session, .parser (session.view parser))

def perform (session : Session) : Command → Session × Answer
  | .openScanner name source encoding tracing =>
      let scanner := Scanner.ofSource source encoding
      (session.addScanner name ⟨scanner, tracing, []⟩, .position scanner.position)
  | .openSink name sink => (session.addSink name sink, .written sink.text)
  | .openParser name scanner sink => session.openParser name scanner sink
  | .iterate name scanner =>
      match session.scanner? scanner with
      | none => (session, .noObject scanner)
      | some (number, tape) =>
          (session.addIterator name ⟨number, false⟩, .position tape.scanner.position)
  | .advance name =>
      match session.iterator? name with
      | none => (session, .noObject name)
      | some (number, iterator) =>
          match session.advance number iterator with
          | (session, .error fault) => (session, .failed fault)
          | (session, .ok token) => (session, .drawn token (session.positionOf iterator.scanner))
  | .draw name =>
      match session.scanner? name with
      | none => (session, .noObject name)
      | some (number, tape) =>
          match session.draw number tape with
          | (session, .error fault) => (session, .failed fault)
          | (session, .ok token) => (session, .drawn (some token) (session.positionOf number))
  | .position name =>
      match session.scanner? name with
      | none => (session, .noObject name)
      | some (_, tape) => (session, .position tape.scanner.position)
  | .line name number =>
      match session.scanner? name with
      | none => (session, .noObject name)
      | some (_, tape) => (session, .line (tape.scanner.source.line number))
  | .trace name =>
      match session.scanner? name with
      | some (_, tape) =>
          (session, if tape.tracing then .tokens tape.handed else .noObject name)
      | none => (session, .noObject name)
  | .parse name =>
      match session.parser? name with
      | none => (session, .noObject name)
      | some (number, parser) =>
          let (session, fault) := session.read number parser
          let parser := session.parsers.getD number parser
          (session, .parsed fault (session.view parser))
  | .current name =>
      match session.parser? name with
      | none => (session, .noObject name)
      | some (_, parser) => (session, .parser (session.view parser))
  | .emit name line =>
      match session.sink? name with
      | none => (session, .noObject name)
      | some (number, sink) =>
          let sink := sink.emit line
          ({ session with sinks := session.sinks.set number sink }, .written sink.text)
  | .lines name =>
      match session.sink? name with
      | some (_, sink) => (session, (sink.lines?.map .lines).getD (.noObject name))
      | none => (session, .noObject name)

/-- Carry out commands in order, from a session on, and answer each. -/
def performAll (session : Session) : List Command → Session × List Answer
  | [] => (session, [])
  | command :: rest =>
      let (next, answer) := session.perform command
      let (last, answers) := next.performAll rest
      (last, answer :: answers)

end LetLang.Session
