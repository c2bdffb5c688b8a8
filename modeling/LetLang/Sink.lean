import LetLang.Instruction

/-!
# Sinks

A sink takes instruction lines in the order they are emitted and never gives one back.
One kind keeps the lines apart and the other writes them on as text; the text of both
is the same.
-/

namespace LetLang

/-- Where emitted lines go. -/
inductive Sink where
  | list (lines : List String)
  | stream (written : String)
  deriving DecidableEq, Repr

namespace Sink

def emit (sink : Sink) (line : String) : Sink :=
  match sink with
  | .list lines => .list (lines ++ [line])
  | .stream written => .stream (written ++ (line ++ "\n"))

def emitAll (sink : Sink) (lines : List String) : Sink :=
  lines.foldl emit sink

/-- All that a sink has taken, as text. -/
def text : Sink → String
  | .list lines => textOfLines lines
  | .stream written => written

/-- The lines of a sink that keeps them apart. -/
def lines? : Sink → Option (List String)
  | .list lines => some lines
  | .stream _ => none

/-- A line adds itself and a line feed to the text, whatever the kind of the sink. -/
@[simp]
theorem text_emit (sink : Sink) (line : String) :
    (sink.emit line).text = sink.text ++ (line ++ "\n") := by
  cases sink with
  | list lines => simp [emit, text, textOfLines]
  | stream written => rfl

end Sink

end LetLang
