import LetLang.Position

/-!
# Sources

A source is a file name and its bytes. Tokens are read from the bytes before the
first NUL byte, which ends the text as the end of the bytes does. The lines that
messages quote are taken from all bytes.
-/

namespace LetLang

/-- The bytes of a program and the name that messages call them by. -/
structure Source where
  file : String
  bytes : List Byte
  deriving DecidableEq, Repr

namespace Source

/-- The name of a source that is not a file. -/
def defaultFile : String := "<input>"

/-- The bytes that tokens are read from. -/
def text (source : Source) : List Byte :=
  source.bytes.takeWhile (· != Byte.nul)

def lines (source : Source) : List (List Byte) :=
  source.bytes.splitOn Byte.lineFeed

/-- A line without the carriage returns at its end. -/
def trimLine (line : List Byte) : List Byte :=
  (line.reverse.dropWhile (· == Byte.carriageReturn)).reverse

/-- The text of a line, counted from one. A line that the source does not have is empty. -/
def line (source : Source) (number : Int) : String :=
  if number < 1 then ""
  else
    match source.lines[number.toNat - 1]? with
    | some line => latinText (trimLine line)
    | none => ""

def locate (source : Source) (position : Position) : Location :=
  .ofPosition source.file position

end Source

end LetLang
