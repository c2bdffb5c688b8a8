import LetLang.Fault
import LetLang.Gap
import LetLang.Lexeme
import LetLang.Source
import LetLang.Token.Basic

/-!
# Scanners

A scanner hands out the tokens of a source one at a time. Each draw skips a gap and reads
one lexeme. A draw that fails still moves on: past a comment that never closes, or up to
the closing quote of a literal that cannot be decoded. The main statement is that every
draw but the one of the end shortens what is left, so drawing comes to an end. A scanner has
only the bytes before the first NUL byte to read; a cursor, which has all of them, draws the same.
-/

namespace LetLang

/-- A source and how far it has been read. `rest` is the text after `position`. -/
structure Scanner where
  source : Source
  /-- What string literals are decoded by. -/
  encoding : Decoder
  position : Position
  rest : List Byte

namespace Scanner

def ofSource (source : Source) (encoding : Decoder) : Scanner :=
  ⟨source, encoding, .start, source.text⟩

/-- The scanner after the bytes of a span, which leave the given rest. -/
def move (scanner : Scanner) (span rest : List Byte) : Scanner :=
  { scanner with position := scanner.position.through span, rest := rest }

/-- The diagnostic of a comment that opens here and never closes. -/
def unclosedComment (scanner : Scanner) : Diagnostic :=
  let location := scanner.source.locate scanner.position
  ⟨.unclosedComment, some location, some (scanner.source.line location.line)⟩

/-- Draw the token that starts right here. -/
def token (scanner : Scanner) : Scanner × Except Fault Token :=
  let (lexeme, rest) := Lexeme.read scanner.rest
  match lexeme.text scanner.encoding with
  | .ok text =>
      (scanner.move lexeme.span rest,
        .ok ⟨lexeme.kind, text, some (scanner.source.locate scanner.position)⟩)
  | .error fault =>
      (scanner.move lexeme.body (lexeme.closing ++ rest), .error (.encoding fault))

/-- Skip the gap in front of the next token. A block comment that never closes is reported. -/
def skip (scanner : Scanner) : Scanner × Except Diagnostic Unit :=
  match Gap.read scanner.rest with
  | .clear span rest => (scanner.move span rest, .ok ())
  | .unclosed span comment =>
      let opener := scanner.move span comment
      (opener.move comment [], .error opener.unclosedComment)

/-- The scanner after some bytes more, or at the end of the text if there are not as many. -/
def advance (scanner : Scanner) (count : Nat) : Scanner :=
  scanner.move (scanner.rest.take count) (scanner.rest.drop count)

/-- Draw the next token: skip the gap, then read a lexeme. -/
def next (scanner : Scanner) : Scanner × Except Fault Token :=
  match scanner.skip with
  | (after, .ok ()) => after.token
  | (after, .error report) => (after, .error (.diagnostic report))

theorem next_of_read {scanner : Scanner} {span rest : List Byte}
    (hread : Gap.read scanner.rest = .clear span rest) :
    scanner.next = (scanner.move span rest).token := by
  rw [next, skip, hread]

theorem next_of_read_unclosed {scanner : Scanner} {span comment : List Byte}
    (hread : Gap.read scanner.rest = .unclosed span comment) :
    scanner.next = ((scanner.move span comment).move comment [],
      .error (.diagnostic (scanner.move span comment).unclosedComment)) := by
  rw [next, skip, hread]

/-- The kind of a token drawn right here is the kind of the lexeme. -/
theorem kind_of_token {scanner : Scanner} {after : Scanner} {token : Token}
    (hdraw : scanner.token = (after, .ok token)) :
    token.kind = (Lexeme.read scanner.rest).1.kind ∧ after.rest = (Lexeme.read scanner.rest).2 := by
  unfold Scanner.token at hdraw
  dsimp only at hdraw
  split at hdraw
  next =>
    obtain ⟨rfl, htoken⟩ := Prod.mk.inj hdraw
    obtain rfl := Except.ok.inj htoken
    exact ⟨rfl, rfl⟩
  next => simp at hdraw

theorem length_of_clear {text span rest : List Byte} (hgap : Gap.read text = .clear span rest) :
    rest.length ≤ text.length := by
  have hbytes := Gap.bytes_read text
  rw [hgap] at hbytes
  rw [← hbytes]
  simp [Gap.bytes]

/-- Drawing a token never lengthens what is left, and shortens it unless the token is the
end of the input. -/
theorem length_of_next {scanner after : Scanner} {token : Token}
    (hdraw : scanner.next = (after, .ok token)) :
    after.rest.length ≤ scanner.rest.length ∧
      (token.kind ≠ .finish → after.rest.length < scanner.rest.length) := by
  cases hgap : Gap.read scanner.rest with
  | clear span rest =>
      rw [next_of_read hgap] at hdraw
      obtain ⟨hkind, hrest⟩ := kind_of_token hdraw
      have hlength := length_of_clear hgap
      have hread := congrArg List.length (Lexeme.span_append_read rest)
      simp only [move] at hkind hrest
      rw [List.length_append] at hread
      rw [hrest]
      refine ⟨by omega, fun hfinish => ?_⟩
      have htext : rest ≠ [] := by
        rintro rfl
        exact hfinish hkind
      have hbody := List.length_pos_iff.mpr (Lexeme.body_read_ne_nil htext)
      rw [Lexeme.span, List.length_append] at hread
      omega
  | unclosed span comment =>
      rw [next_of_read_unclosed hgap] at hdraw
      cases (Prod.mk.inj hdraw).2

end Scanner

/-- All that a scanner hands out up to the first end of the input or the first failure. -/
structure Scan where
  /-- The tokens, each with the position after it. -/
  tokens : List (Token × Position)
  final : Scanner
  /-- What made the last draw fail, if it failed. -/
  fault : Option Fault

namespace Scanner

/-- Draw tokens until one is the end of the input or a draw fails. -/
def scan (scanner : Scanner) : Scan :=
  match hdraw : scanner.next with
  | (after, .error fault) => ⟨[], after, some fault⟩
  | (after, .ok token) =>
      if hfinish : token.kind = .finish then ⟨[(token, after.position)], after, none⟩
      else
        have := (length_of_next hdraw).2 hfinish
        let later := after.scan
        { later with tokens := (token, after.position) :: later.tokens }
termination_by scanner.rest.length

end Scanner

end LetLang
