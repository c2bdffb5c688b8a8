import LetLang.Scanner

/-!
# Cursors

A cursor is a place in all the bytes of a source. It sees one byte at a time, or the one after it,
and moves over one byte at a time. At the end of the bytes it sees a NUL byte, and it never moves
over a NUL byte, wherever that stands. Each of the loops that skip a gap or read a lexeme has a test
of its own for that byte. A scanner does by whole runs of bytes what a cursor does byte by byte.
-/

namespace LetLang

/-- A place in the bytes of a source. -/
structure Cursor where
  source : Source
  /-- What string literals are decoded by. -/
  encoding : Decoder
  position : Position

namespace Cursor

def ofSource (source : Source) (encoding : Decoder) : Cursor :=
  ⟨source, encoding, .start⟩

/-- The byte some places ahead. There is a NUL byte past the end. -/
def peek (cursor : Cursor) (ahead : Nat) : Byte :=
  (cursor.source.bytes[cursor.position.offset + ahead]?).getD Byte.nul

/-- Move over the byte here, unless it is a NUL byte. -/
def advance (cursor : Cursor) : Cursor :=
  let byte := cursor.peek 0
  if byte = Byte.nul then cursor else { cursor with position := cursor.position.advance byte }

/-- The bytes from here to a later place. -/
def upTo (cursor later : Cursor) : List Byte :=
  (cursor.source.bytes.drop cursor.position.offset).take
    (later.position.offset - cursor.position.offset)

def location (cursor : Cursor) : Location :=
  cursor.source.locate cursor.position

/-- The diagnostic of a comment that opens here and never closes. -/
def unclosedComment (cursor : Cursor) : Diagnostic :=
  ⟨.unclosedComment, some cursor.location, some (cursor.source.line cursor.location.line)⟩

/-- How many bytes are not passed yet. -/
def left (cursor : Cursor) : Nat :=
  cursor.source.bytes.length - cursor.position.offset

theorem left_advance_le (cursor : Cursor) : cursor.advance.left ≤ cursor.left := by
  simp only [advance, left]
  split
  next => exact Nat.le_refl _
  next =>
    simp only [Position.offset_advance]
    omega

/-- What is seen and is no NUL byte has not been passed yet. -/
theorem left_advance_lt {cursor : Cursor} (hbyte : cursor.peek 0 ≠ Byte.nul) :
    cursor.advance.left < cursor.left := by
  have hinside : cursor.position.offset < cursor.source.bytes.length := by
    apply Nat.lt_of_not_le
    intro hpast
    apply hbyte
    rw [peek, Nat.add_zero, List.getElem?_eq_none hpast, Option.getD_none]
  simp only [advance, left, if_neg hbyte, Position.offset_advance]
  omega

/-! ## Loops -/

/-- A byte that passes a test which a NUL byte does not pass is none. -/
theorem ne_nul_of_test {test : Byte → Bool} {byte : Byte} (hnul : test Byte.nul = false)
    (htest : test byte = true) : byte ≠ Byte.nul := by
  intro hbyte
  rw [hbyte, hnul] at htest
  cases htest

/-- Move on as long as the byte here passes a test. A NUL byte does not pass it. -/
def advanceWhile (test : Byte → Bool) (hnul : test Byte.nul = false) (cursor : Cursor) : Cursor :=
  if htest : test (cursor.peek 0) = true then
    have := left_advance_lt (ne_nul_of_test hnul htest)
    advanceWhile test hnul cursor.advance
  else cursor
termination_by cursor.left

theorem left_advanceWhile_le (test : Byte → Bool) (hnul : test Byte.nul = false)
    (cursor : Cursor) : (cursor.advanceWhile test hnul).left ≤ cursor.left := by
  fun_induction advanceWhile test hnul cursor with
  | case1 cursor _ hless ih => exact Nat.le_trans ih (Nat.le_of_lt hless)
  | case2 => exact Nat.le_refl _

theorem left_advanceWhile_lt {test : Byte → Bool} {hnul : test Byte.nul = false}
    {cursor : Cursor} (htest : test (cursor.peek 0) = true) :
    (cursor.advanceWhile test hnul).left < cursor.left := by
  rw [advanceWhile, dif_pos htest]
  exact Nat.lt_of_le_of_lt (left_advanceWhile_le _ _ _)
    (left_advance_lt (ne_nul_of_test hnul htest))

/-- The bytes that the rest of a line comment goes on with. -/
def continuesLine (byte : Byte) : Bool :=
  byte != Byte.lineFeed && byte != Byte.nul

/-- The bytes that the body of a string literal goes on with. -/
def continuesString (byte : Byte) : Bool :=
  byte != Byte.quote && byte != Byte.nul

/-- Skip a line comment, up to the line feed. -/
def skipLineComment (cursor : Cursor) : Cursor :=
  cursor.advanceWhile continuesLine (by decide)

theorem left_skipLineComment_lt {cursor : Cursor} (hslash : cursor.peek 0 = Byte.slash) :
    cursor.skipLineComment.left < cursor.left := by
  apply left_advanceWhile_lt
  rw [hslash]
  rfl

/-- Skip a block comment to its end. Whether it has one. -/
def skipToCloser (cursor : Cursor) : Cursor × Bool :=
  if hend : cursor.peek 0 = Byte.nul then (cursor, false)
  else if cursor.peek 0 = Byte.star ∧ cursor.peek 1 = Byte.slash then
    (cursor.advance.advance, true)
  else
    have := left_advance_lt hend
    cursor.advance.skipToCloser
termination_by cursor.left

theorem left_skipToCloser_le (cursor : Cursor) : cursor.skipToCloser.1.left ≤ cursor.left := by
  fun_induction skipToCloser cursor with
  | case1 => exact Nat.le_refl _
  | case2 cursor => exact Nat.le_trans cursor.advance.left_advance_le cursor.left_advance_le
  | case3 cursor _ _ hless ih => exact Nat.le_trans ih (Nat.le_of_lt hless)

/-- Skip a block comment that opens here. -/
def skipBlockComment (cursor : Cursor) : Cursor × Bool :=
  cursor.advance.advance.skipToCloser

theorem left_lt_of_skipBlockComment {cursor after : Cursor} {closed : Bool}
    (hslash : cursor.peek 0 = Byte.slash) (hskip : cursor.skipBlockComment = (after, closed)) :
    after.left < cursor.left := by
  have hbyte : cursor.peek 0 ≠ Byte.nul := by
    rw [hslash]
    decide
  have hafter : cursor.skipBlockComment.1.left ≤ cursor.advance.left :=
    Nat.le_trans (left_skipToCloser_le _) (left_advance_le _)
  rw [hskip] at hafter
  exact Nat.lt_of_le_of_lt hafter (left_advance_lt hbyte)

/-- Skip blanks and comments until a token can start. -/
def skip (cursor : Cursor) : Cursor × Except Diagnostic Unit :=
  if hblank : (cursor.peek 0).isBlank = true then
    have := left_advance_lt (ne_nul_of_test rfl hblank)
    cursor.advance.skip
  else if hline : cursor.peek 0 = Byte.slash ∧ cursor.peek 1 = Byte.slash then
    have := left_skipLineComment_lt hline.1
    cursor.skipLineComment.skip
  else if hblock : cursor.peek 0 = Byte.slash ∧ cursor.peek 1 = Byte.star then
    match hskip : cursor.skipBlockComment with
    | (after, true) =>
        have := left_lt_of_skipBlockComment hblock.1 hskip
        after.skip
    | (after, false) => (after, .error cursor.unclosedComment)
  else (cursor, .ok ())
termination_by cursor.left

/-! ## Draws -/

/-- Read the token that starts here. -/
def token (cursor : Cursor) : Cursor × Except Fault Token :=
  let byte := cursor.peek 0
  let location := some cursor.location
  if byte.startsWord then
    let after := cursor.advanceWhile (·.continuesWord) (by decide)
    let name := latinText (cursor.upTo after)
    (after, .ok ⟨.ofWord name, name, location⟩)
  else if byte = Byte.zero then
    (cursor.advance, .ok ⟨.number, latinText [byte], location⟩)
  else if byte.isDigit then
    let after := cursor.advanceWhile (·.isDigit) (by decide)
    (after, .ok ⟨.number, latinText (cursor.upTo after), location⟩)
  else if byte = Byte.quote then
    let opened := cursor.advance
    let after := opened.advanceWhile continuesString (by decide)
    match cursor.encoding.decode (opened.upTo after) with
    | .ok text => (after.advance, .ok ⟨.string, text, location⟩)
    | .error cause => (after, .error (.encoding cause))
  else if byte = Byte.nul then (cursor, .ok ⟨.finish, Kind.finish.name, location⟩)
  else (cursor.advance, .ok ⟨.ofMark byte, latinText [byte], location⟩)

/-- Draw the next token: skip the gap, then read the token after it. -/
def next (cursor : Cursor) : Cursor × Except Fault Token :=
  match cursor.skip with
  | (after, .ok ()) => after.token
  | (after, .error report) => (after, .error (.diagnostic report))

end Cursor

end LetLang
