import LetLang.Position

/-!
# Diagnostics

A diagnostic reports what is wrong with a program: a cause, the place it was found at,
and the line of the source to quote there. It is shown as the place and the text, then
the line with a caret below the column, then a hint.
-/

namespace LetLang

/-- What a diagnostic reports. -/
inductive Cause where
  /-- A remark of its own wording. -/
  | general (text : String) (hint : Option String)
  /-- A remark of its own wording on the tokens of a program. -/
  | lexical (text : String) (hint : Option String)
  /-- A remark of its own wording on the order of the tokens. -/
  | grammatical (text : String) (hint : Option String)
  /-- A block comment runs into the end of the input. -/
  | unclosedComment
  /-- A token stands where the statement needs another one. -/
  | unexpectedToken (found : String) (expected : Option String)
  deriving DecidableEq, Repr

/-- A cause with its place and the source line to quote. -/
structure Diagnostic where
  cause : Cause
  location : Option Location
  sourceLine : Option String
  deriving DecidableEq, Repr

namespace Cause

def text : Cause → String
  | .general text _ => text
  | .lexical text _ => text
  | .grammatical text _ => text
  | .unclosedComment => "unterminated block comment"
  | .unexpectedToken found _ => "unexpected token '" ++ found ++ "'"

/-- What the cause advises. An empty expectation advises nothing. -/
def hint : Cause → Option String
  | .general _ hint => hint
  | .lexical _ hint => hint
  | .grammatical _ hint => hint
  | .unclosedComment => some "add closing */ to terminate the comment"
  | .unexpectedToken _ expected => (expected.filter (· ≠ "")).map ("expected " ++ ·)

/-- Whether the tokens themselves are at fault. -/
def isLexical : Cause → Bool
  | .lexical .. | .unclosedComment => true
  | _ => false

/-- Whether the order of the tokens is at fault. -/
def isGrammatical : Cause → Bool
  | .grammatical .. | .unexpectedToken .. => true
  | _ => false

end Cause

namespace Diagnostic

/-- The first line: the place, if there is one, and the text. -/
def heading (diagnostic : Diagnostic) : String :=
  match diagnostic.location with
  | some location => location.render ++ ": error: " ++ diagnostic.cause.text
  | none => "error: " ++ diagnostic.cause.text

/-- The line with the caret, which stands below the column of the quoted line. There is
none for a column before the first. -/
def caretLine (column : Int) : Option String :=
  if 0 < column then some (String.ofList (List.replicate (column.toNat + 3) ' ' ++ ['^']))
  else none

/-- The quoted source line, which needs a place to be shown for, and its caret. -/
def quotation (diagnostic : Diagnostic) : List String :=
  match diagnostic.location, diagnostic.sourceLine with
  | some location, some line => ("    " ++ line) :: (caretLine location.column).toList
  | _, _ => []

/-- The line with the hint. An empty hint is not shown. -/
def hintLine (diagnostic : Diagnostic) : Option String :=
  (diagnostic.cause.hint.filter (· ≠ "")).map ("hint: " ++ ·)

def lines (diagnostic : Diagnostic) : List String :=
  diagnostic.heading :: diagnostic.quotation ++ diagnostic.hintLine.toList

/-- The whole diagnostic as it is shown. -/
def render (diagnostic : Diagnostic) : String :=
  "\n".intercalate diagnostic.lines

end Diagnostic

end LetLang
