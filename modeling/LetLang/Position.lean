import LetLang.Byte

/-!
# Positions and locations

A position is a place between two bytes of a source: how many bytes stand before
it, on which line it is and in which column of that line. A location names such a
place in a message, together with the file.
-/

namespace LetLang

/-- A place in a source. Lines and columns count from one and columns count bytes. -/
structure Position where
  offset : Nat
  line : Nat
  column : Nat
  deriving DecidableEq, Repr

namespace Position

def start : Position := ⟨0, 1, 1⟩

/-- The place after one more byte. A line feed ends its line. -/
def advance (position : Position) (byte : Byte) : Position :=
  if byte = Byte.lineFeed then ⟨position.offset + 1, position.line + 1, 1⟩
  else ⟨position.offset + 1, position.line, position.column + 1⟩

/-- The place after a run of bytes. -/
def through (position : Position) (bytes : List Byte) : Position :=
  bytes.foldl advance position

@[simp]
theorem through_nil (position : Position) : position.through [] = position := rfl

@[simp]
theorem through_cons (position : Position) (byte : Byte) (bytes : List Byte) :
    position.through (byte :: bytes) = (position.advance byte).through bytes := rfl

@[simp]
theorem through_append (position : Position) (before after : List Byte) :
    position.through (before ++ after) = (position.through before).through after :=
  List.foldl_append

@[simp]
theorem offset_advance (position : Position) (byte : Byte) :
    (position.advance byte).offset = position.offset + 1 := by
  unfold advance
  split <;> rfl

@[simp]
theorem offset_through (position : Position) (bytes : List Byte) :
    (position.through bytes).offset = position.offset + bytes.length := by
  induction bytes generalizing position with
  | nil => rfl
  | cons byte bytes ih => simp [ih]; omega

end Position

/-- A place named in a message. Line and column are any integers: a message may
also be made for a place that no source has. -/
structure Location where
  file : String
  line : Int
  column : Int
  deriving DecidableEq, Repr

namespace Location

def ofPosition (file : String) (position : Position) : Location :=
  ⟨file, position.line, position.column⟩

/-- A location is written as file, line and column with colons between them. -/
def render (location : Location) : String :=
  location.file ++ ":" ++ toString location.line ++ ":" ++ toString location.column

end Location

end LetLang
