import LetLang.Byte

/-!
# Gaps between tokens

A gap is a run of blanks and comments. A line comment opens with two slashes and
runs to the end of its line; a block comment opens with a slash and a star and
runs to the first star and slash after that, so block comments do not nest. A block
comment that never closes leaves no token to read.
-/

namespace LetLang.Gap

def lineOpener : List Byte := [Byte.slash, Byte.slash]

def blockOpener : List Byte := [Byte.slash, Byte.star]

def blockCloser : List Byte := [Byte.star, Byte.slash]

/-- Split a text at the first star and slash, keeping them in the first part. -/
def throughCloser? : List Byte → Option (List Byte × List Byte)
  | [] => none
  | byte :: rest =>
      if byte = Byte.star ∧ rest.head? = some Byte.slash then
        some (blockCloser, rest.tail)
      else
        (throughCloser? rest).map fun (inside, after) => (byte :: inside, after)

/-- What stands at the front of a text where a gap may go on. -/
inductive Front where
  /-- One blank, or one whole comment, and what follows it. -/
  | piece (span rest : List Byte)
  /-- A block comment that no later bytes close. -/
  | unclosed
  /-- A token, or the end of the text. -/
  | clear
  deriving DecidableEq, Repr

/-- Look at the front of a text. A line comment stops before the line feed, which is
a blank of its own. -/
def front : List Byte → Front
  | [] => .clear
  | byte :: rest =>
      if byte.isBlank then .piece [byte] rest
      else if byte = Byte.slash ∧ rest.head? = some Byte.slash then
        .piece (byte :: rest.takeWhile (· != Byte.lineFeed)) (rest.dropWhile (· != Byte.lineFeed))
      else if byte = Byte.slash ∧ rest.head? = some Byte.star then
        match throughCloser? rest.tail with
        | some (inside, after) => .piece (blockOpener ++ inside) after
        | none => .unclosed
      else .clear

/-- Splitting at the closer loses nothing and takes at least the closer. -/
theorem throughCloser?_eq_some {text inside after : List Byte}
    (hsplit : throughCloser? text = some (inside, after)) :
    inside ++ after = text ∧ inside ≠ [] := by
  induction text generalizing inside with
  | nil => simp [throughCloser?] at hsplit
  | cons byte rest ih =>
      unfold throughCloser? at hsplit
      split at hsplit
      next hcloser =>
        obtain ⟨rfl, hslash⟩ := hcloser
        cases rest with
        | nil => simp at hslash
        | cons next rest =>
            obtain rfl : next = Byte.slash := by simpa using hslash
            simp only [List.tail_cons, Option.some.injEq, Prod.mk.injEq] at hsplit
            obtain ⟨rfl, rfl⟩ := hsplit
            simp [blockCloser]
      next =>
        obtain ⟨⟨later, left⟩, hlater, heq⟩ := Option.map_eq_some_iff.mp hsplit
        simp only [Prod.mk.injEq] at heq
        obtain ⟨rfl, rfl⟩ := heq
        simp [(ih hlater).1]

/-- A piece and what follows it make up the text, and the piece is not empty. -/
theorem front_eq_piece {text span rest : List Byte} (hfront : front text = .piece span rest) :
    span ++ rest = text ∧ span ≠ [] := by
  cases text with
  | nil => simp [front] at hfront
  | cons byte tail =>
      rw [front] at hfront
      split at hfront
      next =>
        simp only [Front.piece.injEq] at hfront
        simp [← hfront.1, ← hfront.2]
      next =>
        split at hfront
        next =>
          simp only [Front.piece.injEq] at hfront
          simp [← hfront.1, ← hfront.2]
        next =>
          split at hfront
          next hopener =>
            obtain ⟨rfl, hstar⟩ := hopener
            cases tail with
            | nil => simp at hstar
            | cons next tail =>
                obtain rfl : next = Byte.star := by simpa using hstar
                simp only [List.tail_cons] at hfront
                split at hfront
                next inside after hsplit =>
                  simp only [Front.piece.injEq] at hfront
                  simp [← hfront.1, ← hfront.2, blockOpener, (throughCloser?_eq_some hsplit).1]
                next => simp at hfront
          next => simp at hfront

theorem length_lt_of_front {text span rest : List Byte} (hfront : front text = .piece span rest) :
    rest.length < text.length := by
  obtain ⟨rfl, hspan⟩ := front_eq_piece hfront
  have := List.length_pos_iff.mpr hspan
  simp only [List.length_append]
  omega

end LetLang.Gap

namespace LetLang

/-- How the gap at the front of a text ends. -/
inductive Gap where
  /-- The bytes of the gap, and the text from the first token on. -/
  | clear (span rest : List Byte)
  /-- The bytes before a block comment that never closes, and the comment itself. -/
  | unclosed (span comment : List Byte)
  deriving DecidableEq, Repr

namespace Gap

def prepend (piece : List Byte) : Gap → Gap
  | .clear span rest => .clear (piece ++ span) rest
  | .unclosed span comment => .unclosed (piece ++ span) comment

/-- Read the longest gap at the front of a text. -/
def read (text : List Byte) : Gap :=
  match hfront : front text with
  | .clear => .clear [] text
  | .unclosed => .unclosed [] text
  | .piece span rest =>
      have := length_lt_of_front hfront
      (read rest).prepend span
termination_by text.length

def bytes : Gap → List Byte
  | .clear span rest => span ++ rest
  | .unclosed span comment => span ++ comment

theorem bytes_prepend (piece : List Byte) (gap : Gap) :
    (gap.prepend piece).bytes = piece ++ gap.bytes := by
  cases gap <;> simp [prepend, bytes]

/-- Reading a gap loses no byte of the text. -/
theorem bytes_read (text : List Byte) : (read text).bytes = text := by
  fun_induction read text with
  | case1 => rfl
  | case2 => rfl
  | case3 text span rest hfront _ ih => rw [bytes_prepend, ih, (front_eq_piece hfront).1]

end Gap

end LetLang
