import LetLang.Proofs.Comparison
import LetLang.Proofs.GapSkipping
import LetLang.Scanner.Cursor

/-!
# What a cursor draws

A cursor does byte by byte what a scanner does by runs of bytes. What is left for it to read ends
before the first NUL byte, because each loop stops there: one that passes over bytes of a kind,
since a NUL byte is of no such kind; one that looks for a line feed, a quote or a closer, since it
asks for the NUL byte as well. Looking one byte ahead does not see past a NUL byte, since that is
only done from another byte. So every loop of the cursor is a run of the scanner, and every draw is
the same.
-/

namespace LetLang

namespace Scanner

variable {scanner : Scanner} {span rest : List Byte}

theorem skip_of_piece (hpiece : Gap.front scanner.rest = .piece span rest) :
    scanner.skip = (scanner.move span rest).skip := by
  have hmoved : (scanner.move span rest).rest = rest := rfl
  rw [skip, skip, hmoved, Gap.read_of_piece hpiece]
  cases Gap.read rest <;> simp only [Gap.prepend, move_move]

theorem skip_of_unclosed (hunclosed : Gap.front scanner.rest = .unclosed) :
    scanner.skip = (scanner.move scanner.rest [], .error scanner.unclosedComment) := by
  rw [skip, Gap.read_of_unclosed hunclosed]
  rfl

end Scanner

namespace Cursor

variable {cursor : Cursor}

/-! ## What is left -/

/-- The bytes that are left before the first NUL byte. -/
def rest (cursor : Cursor) : List Byte :=
  (cursor.source.bytes.drop cursor.position.offset).takeWhile (· != Byte.nul)

/-- The scanner that stands where a cursor does. -/
def view (cursor : Cursor) : Scanner :=
  ⟨cursor.source, cursor.encoding, cursor.position, cursor.rest⟩

theorem view_ofSource (source : Source) (encoding : Decoder) :
    (ofSource source encoding).view = Scanner.ofSource source encoding := rfl

theorem advance_of_nul (hnul : cursor.peek 0 = Byte.nul) : cursor.advance = cursor := if_pos hnul

theorem advance_of_ne (hbyte : cursor.peek 0 ≠ Byte.nul) : cursor.advance =
    { cursor with position := cursor.position.advance (cursor.peek 0) } := if_neg hbyte

theorem peek_eq (cursor : Cursor) (ahead : Nat) : cursor.peek ahead =
    ((cursor.source.bytes.drop cursor.position.offset)[ahead]?).getD Byte.nul := by
  rw [peek, List.getElem?_drop]

theorem rest_of_nul (hnul : cursor.peek 0 = Byte.nul) : cursor.rest = [] := by
  rw [peek_eq] at hnul
  unfold rest
  cases hbytes : cursor.source.bytes.drop cursor.position.offset with
  | nil => rfl
  | cons byte bytes =>
      rw [hbytes] at hnul
      obtain rfl : byte = Byte.nul := hnul
      rfl

/-- A byte that is seen is the first of those that are left. Moving over it leaves the others. -/
theorem rest_eq_cons (hbyte : cursor.peek 0 ≠ Byte.nul) :
    cursor.rest = cursor.peek 0 :: cursor.advance.rest := by
  have hadvance : cursor.advance.rest =
      ((cursor.source.bytes.drop cursor.position.offset).drop 1).takeWhile (· != Byte.nul) := by
    rw [advance_of_ne hbyte, rest, Position.offset_advance, List.drop_drop]
  rw [hadvance]
  rw [peek_eq] at hbyte ⊢
  unfold rest
  cases hbytes : cursor.source.bytes.drop cursor.position.offset with
  | nil =>
      rw [hbytes] at hbyte
      exact absurd rfl hbyte
  | cons byte bytes =>
      rw [hbytes] at hbyte
      exact List.takeWhile_cons_of_pos (by simpa using hbyte)

/-- The byte ahead is the next one to be seen. -/
theorem peek_one (hbyte : cursor.peek 0 ≠ Byte.nul) : cursor.peek 1 = cursor.advance.peek 0 := by
  rw [advance_of_ne hbyte, peek, peek, Position.offset_advance, Nat.add_zero]

theorem head?_rest {byte : Byte} (hbyte : byte ≠ Byte.nul) :
    cursor.rest.head? = some byte ↔ cursor.peek 0 = byte := by
  by_cases hnul : cursor.peek 0 = Byte.nul
  · simp [rest_of_nul hnul, hnul, hbyte.symm]
  · simp [rest_eq_cons hnul]

theorem ne_nul_of_mem_rest {byte : Byte} (hmem : byte ∈ cursor.rest) : byte ≠ Byte.nul := by
  simpa using List.mem_takeWhile_imp hmem

theorem view_advance (hbyte : cursor.peek 0 ≠ Byte.nul) :
    cursor.advance.view = cursor.view.move [cursor.peek 0] cursor.advance.rest := by
  rw [advance_of_ne hbyte]
  rfl

theorem view_advance_of_rest_eq_nil (hrest : cursor.rest = []) :
    cursor.advance.view = cursor.view := by
  by_cases hbyte : cursor.peek 0 = Byte.nul
  · rw [advance_of_nul hbyte]
  · rw [rest_eq_cons hbyte] at hrest
    cases hrest

theorem view_advance_of_rest_eq_cons {byte : Byte} {later : List Byte}
    (hrest : cursor.rest = byte :: later) :
    cursor.advance.view = cursor.view.move [byte] later := by
  by_cases hbyte : cursor.peek 0 = Byte.nul
  · rw [rest_of_nul hbyte] at hrest
    cases hrest
  · rw [rest_eq_cons hbyte] at hrest
    obtain ⟨rfl, rfl⟩ := List.cons.inj hrest
    exact view_advance hbyte

/-! ## Loops -/

/-- A loop passes over the bytes in front that pass its test. -/
theorem view_advanceWhile (test : Byte → Bool) (hnul : test Byte.nul = false) (cursor : Cursor) :
    (cursor.advanceWhile test hnul).view =
      cursor.view.move (cursor.rest.takeWhile test) (cursor.rest.dropWhile test) := by
  fun_induction advanceWhile test hnul cursor with
  | case1 cursor htest _ ih =>
      have hbyte := ne_nul_of_test hnul htest
      rw [ih, view_advance hbyte, Scanner.move_move, rest_eq_cons hbyte,
        List.takeWhile_cons_of_pos htest, List.dropWhile_cons_of_pos htest]
      rfl
  | case2 cursor htest =>
      have hstop : cursor.rest.takeWhile test = [] ∧ cursor.rest.dropWhile test = cursor.rest := by
        by_cases hbyte : cursor.peek 0 = Byte.nul
        · rw [rest_of_nul hbyte]
          exact ⟨rfl, rfl⟩
        · rw [rest_eq_cons hbyte]
          exact ⟨List.takeWhile_cons_of_neg htest, List.dropWhile_cons_of_neg htest⟩
      rw [hstop.1, hstop.2]
      rfl

/-- What a loop has passed over are the bytes in between. -/
theorem upTo_advanceWhile (test : Byte → Bool) (hnul : test Byte.nul = false) (cursor : Cursor) :
    cursor.upTo (cursor.advanceWhile test hnul) = cursor.rest.takeWhile test := by
  have hposition := congrArg Scanner.position (view_advanceWhile test hnul cursor)
  have hoffset : (cursor.advanceWhile test hnul).position.offset =
      cursor.position.offset + (cursor.rest.takeWhile test).length := by
    rw [← Position.offset_through]
    exact congrArg Position.offset hposition
  have hprefix : cursor.rest.takeWhile test <+:
      cursor.source.bytes.drop cursor.position.offset :=
    (List.takeWhile_prefix test).trans (List.takeWhile_prefix _)
  rw [upTo, hoffset, Nat.add_sub_cancel_left]
  exact (List.prefix_iff_eq_take.mp hprefix).symm

/-- Among bytes that are no NUL bytes, a test that asks for that byte as well as for another one
stops at the other one. -/
theorem span_rest_of_stop (stop : Byte) (cursor : Cursor) :
    cursor.rest.takeWhile (fun byte => byte != stop && byte != Byte.nul) =
        cursor.rest.takeWhile (· != stop) ∧
      cursor.rest.dropWhile (fun byte => byte != stop && byte != Byte.nul) =
        cursor.rest.dropWhile (· != stop) := by
  have hsame : ∀ byte ∈ cursor.rest, (byte != stop && byte != Byte.nul) = (byte != stop) := by
    intro byte hbyte
    simp [ne_nul_of_mem_rest hbyte]
  generalize cursor.rest = bytes at hsame
  induction bytes with
  | nil => exact ⟨rfl, rfl⟩
  | cons byte bytes ih =>
      obtain ⟨hbyte, hbytes⟩ := List.forall_mem_cons.mp hsame
      obtain ⟨htake, hdrop⟩ := ih hbytes
      rw [List.takeWhile_cons, List.takeWhile_cons, List.dropWhile_cons, List.dropWhile_cons,
        hbyte, htake, hdrop]
      exact ⟨rfl, rfl⟩

theorem view_skipLineComment (cursor : Cursor) : cursor.skipLineComment.view =
    cursor.view.move (cursor.rest.takeWhile (· != Byte.lineFeed))
      (cursor.rest.dropWhile (· != Byte.lineFeed)) := by
  obtain ⟨htake, hdrop⟩ := cursor.span_rest_of_stop Byte.lineFeed
  rw [skipLineComment, view_advanceWhile]
  unfold continuesLine
  rw [htake, hdrop]

/-- A block comment ends at the first closer before a NUL byte, or never. -/
theorem view_skipToCloser (cursor : Cursor) :
    (cursor.skipToCloser.1.view, cursor.skipToCloser.2) =
      match Gap.throughCloser? cursor.rest with
      | some (inside, later) => (cursor.view.move inside later, true)
      | none => (cursor.view.move cursor.rest [], false) := by
  fun_induction skipToCloser cursor with
  | case1 cursor hnul =>
      have hview : cursor.view = cursor.view.move [] [] := by
        rw [view, rest_of_nul hnul]
        rfl
      rw [rest_of_nul hnul]
      exact congrArg (·, false) hview
  | case2 cursor hbyte hcloser =>
      obtain ⟨hstar, hslash⟩ := hcloser
      have hahead := hslash
      rw [peek_one hbyte] at hahead
      have hnext : cursor.advance.peek 0 ≠ Byte.nul := by
        rw [hahead]
        decide
      rw [rest_eq_cons hbyte, rest_eq_cons hnext, hstar, hahead, Gap.throughCloser?,
        if_pos ⟨rfl, rfl⟩]
      dsimp only
      rw [view_advance hnext, view_advance hbyte, Scanner.move_move, hstar, hahead]
      rfl
  | case3 cursor hbyte hcloser _ ih =>
      have hopen : ¬ (cursor.peek 0 = Byte.star ∧
          cursor.advance.rest.head? = some Byte.slash) := by
        rw [head?_rest (by decide), ← peek_one hbyte]
        exact hcloser
      rw [ih, rest_eq_cons hbyte, Gap.throughCloser?, if_neg hopen, view_advance hbyte]
      cases Gap.throughCloser? cursor.advance.rest with
      | none => simp
      | some split => simp

theorem view_skipBlockComment {cursor : Cursor} (hopener : cursor.peek 0 = Byte.slash)
    (hahead : cursor.peek 1 = Byte.star) :
    (cursor.skipBlockComment.1.view, cursor.skipBlockComment.2) =
      match Gap.throughCloser? cursor.advance.advance.rest with
      | some (inside, later) => (cursor.view.move (Gap.blockOpener ++ inside) later, true)
      | none => (cursor.view.move cursor.rest [], false) := by
  have hbyte : cursor.peek 0 ≠ Byte.nul := by
    rw [hopener]
    decide
  rw [peek_one hbyte] at hahead
  have hnext : cursor.advance.peek 0 ≠ Byte.nul := by
    rw [hahead]
    decide
  have hinside : cursor.advance.advance.view =
      cursor.view.move Gap.blockOpener cursor.advance.advance.rest := by
    rw [view_advance hnext, view_advance hbyte, Scanner.move_move, hopener, hahead]
    rfl
  rw [skipBlockComment, view_skipToCloser, hinside, rest_eq_cons hbyte, rest_eq_cons hnext, hopener,
    hahead]
  cases Gap.throughCloser? cursor.advance.advance.rest with
  | none =>
      dsimp only
      rw [Scanner.move_move]
      rfl
  | some split =>
      dsimp only
      rw [Scanner.move_move]

/-! ## Draws -/

/-- What stands in front is told by the byte here and the one ahead. -/
theorem front_rest (cursor : Cursor) : Gap.front cursor.rest =
    if (cursor.peek 0).isBlank = true then .piece [cursor.peek 0] cursor.advance.rest
    else if cursor.peek 0 = Byte.slash ∧ cursor.peek 1 = Byte.slash then
      .piece (cursor.rest.takeWhile (· != Byte.lineFeed))
        (cursor.rest.dropWhile (· != Byte.lineFeed))
    else if cursor.peek 0 = Byte.slash ∧ cursor.peek 1 = Byte.star then
      match Gap.throughCloser? cursor.advance.advance.rest with
      | some (inside, later) => .piece (Gap.blockOpener ++ inside) later
      | none => .unclosed
    else .clear := by
  by_cases hnul : cursor.peek 0 = Byte.nul
  · rw [rest_of_nul hnul, hnul]
    rfl
  · have hahead {byte : Byte} (hbyte : byte ≠ Byte.nul) :
        cursor.advance.rest.head? = some byte ↔ cursor.peek 1 = byte := by
      rw [head?_rest hbyte, peek_one hnul]
    rw [rest_eq_cons hnul, Gap.front]
    simp only [hahead (show Byte.slash ≠ Byte.nul by decide),
      hahead (show Byte.star ≠ Byte.nul by decide)]
    split
    next => rfl
    next =>
      split
      next hline =>
        have hslash : (cursor.peek 0 != Byte.lineFeed) = true := by
          rw [hline.1]
          rfl
        rw [List.takeWhile_cons, List.dropWhile_cons, if_pos hslash, if_pos hslash]
      next =>
        split
        next hblock =>
          have hstar : cursor.advance.peek 0 = Byte.star := by
            rw [← peek_one hnul]
            exact hblock.2
          have htail : cursor.advance.rest.tail = cursor.advance.advance.rest := by
            rw [rest_eq_cons (by rw [hstar]; decide), List.tail_cons]
          exact htail ▸ rfl
        next => rfl

/-- A block comment is passed over if it closes. One that does not is passed over up to the end. -/
theorem skipBlockComment_cases {after : Cursor} {closed : Bool}
    (hopener : cursor.peek 0 = Byte.slash) (hahead : cursor.peek 1 = Byte.star)
    (hskip : cursor.skipBlockComment = (after, closed)) :
    (closed = true ∧ ∃ span rest, Gap.front cursor.rest = .piece span rest ∧
      after.view = cursor.view.move span rest) ∨
    (closed = false ∧ Gap.front cursor.rest = .unclosed ∧
      after.view = cursor.view.move cursor.rest []) := by
  have hblank : ¬ Byte.slash.isBlank = true := by decide
  have hline : ¬ (Byte.slash = Byte.slash ∧ Byte.star = Byte.slash) := by decide
  have hfront := cursor.front_rest
  have hview := view_skipBlockComment hopener hahead
  rw [hopener, hahead, if_neg hblank, if_neg hline, if_pos ⟨rfl, rfl⟩] at hfront
  rw [hskip] at hview
  cases hcloser : Gap.throughCloser? cursor.advance.advance.rest with
  | none =>
      rw [hcloser] at hfront hview
      obtain ⟨hmoved, rfl⟩ := Prod.mk.inj hview
      exact .inr ⟨rfl, hfront, hmoved⟩
  | some split =>
      rw [hcloser] at hfront hview
      obtain ⟨hmoved, rfl⟩ := Prod.mk.inj hview
      exact .inl ⟨rfl, _, _, hfront, hmoved⟩

/-- A cursor skips what a scanner does. -/
theorem view_skip (cursor : Cursor) :
    (cursor.skip.1.view, cursor.skip.2) = cursor.view.skip := by
  fun_induction skip cursor with
  | case1 cursor hblank _ ih =>
      have hfront := cursor.front_rest
      rw [if_pos hblank] at hfront
      rw [ih, view_advance (ne_nul_of_test rfl hblank)]
      exact (Scanner.skip_of_piece hfront).symm
  | case2 cursor hblank hline _ ih =>
      have hfront := cursor.front_rest
      rw [if_neg hblank, if_pos hline] at hfront
      rw [ih, view_skipLineComment]
      exact (Scanner.skip_of_piece hfront).symm
  | case3 cursor _ _ hblock after hskip _ ih =>
      rcases skipBlockComment_cases hblock.1 hblock.2 hskip with
        ⟨_, _, _, hfront, hmoved⟩ | ⟨hclosed, _⟩
      · rw [ih, hmoved]
        exact (Scanner.skip_of_piece hfront).symm
      · cases hclosed
  | case4 cursor _ _ hblock after hskip =>
      rcases skipBlockComment_cases hblock.1 hblock.2 hskip with
        ⟨hclosed, _⟩ | ⟨_, hfront, hmoved⟩
      · cases hclosed
      · rw [hmoved]
        exact (Scanner.skip_of_unclosed hfront).symm
  | case5 cursor hblank hline hblock =>
      have hfront := cursor.front_rest
      rw [if_neg hblank, if_neg hline, if_neg hblock] at hfront
      exact (Scanner.skip_of_clear hfront).symm

/-- The lexeme in front is told by the byte here. -/
theorem read_rest (cursor : Cursor) : Lexeme.read cursor.rest =
    if (cursor.peek 0).startsWord then
      (.word (cursor.rest.takeWhile (·.continuesWord)), cursor.rest.dropWhile (·.continuesWord))
    else if cursor.peek 0 = Byte.zero then (.number [cursor.peek 0], cursor.advance.rest)
    else if (cursor.peek 0).isDigit then
      (.number (cursor.rest.takeWhile (·.isDigit)), cursor.rest.dropWhile (·.isDigit))
    else if cursor.peek 0 = Byte.quote then
      let inside := cursor.advance.rest.takeWhile (· != Byte.quote)
      match cursor.advance.rest.dropWhile (· != Byte.quote) with
      | [] => (.literal inside false, [])
      | _ :: later => (.literal inside true, later)
    else if cursor.peek 0 = Byte.nul then (.finish, [])
    else (.single (cursor.peek 0), cursor.advance.rest) := by
  by_cases hnul : cursor.peek 0 = Byte.nul
  · rw [rest_of_nul hnul, hnul]
    rfl
  · rw [rest_eq_cons hnul, Lexeme.read, if_neg hnul]
    split
    next hword =>
      have htest : (cursor.peek 0).continuesWord = true := by simp [Byte.continuesWord, hword]
      rw [List.takeWhile_cons, List.dropWhile_cons, if_pos htest, if_pos htest]
    next =>
      split
      next => rfl
      next =>
        split
        next hdigit => rw [List.takeWhile_cons, List.dropWhile_cons, if_pos hdigit, if_pos hdigit]
        next => rfl

/-- The body of a literal is passed up to the quote that closes it, or up to the end. -/
theorem view_advanceWhile_string (opened : Cursor) :
    let after := opened.advanceWhile continuesString (by decide)
    let inside := opened.rest.takeWhile (· != Byte.quote)
    let later := opened.rest.dropWhile (· != Byte.quote)
    opened.upTo after = inside ∧ after.view = opened.view.move inside later := by
  intro after inside later
  obtain ⟨htake, hdrop⟩ := opened.span_rest_of_stop Byte.quote
  have hupTo : opened.upTo after = opened.rest.takeWhile continuesString := upTo_advanceWhile ..
  have hview : after.view = opened.view.move (opened.rest.takeWhile continuesString)
    (opened.rest.dropWhile continuesString) := view_advanceWhile ..
  exact ⟨hupTo.trans htake, by rw [hview]; unfold continuesString; rw [htake, hdrop]⟩

/-- A string literal is decoded and its closing quote is passed, if there is one. -/
theorem view_token_of_quote {cursor : Cursor} (hquote : cursor.peek 0 = Byte.quote) :
    (cursor.token.1.view, cursor.token.2) = cursor.view.token := by
  have hread : Lexeme.read cursor.view.rest = _ := cursor.read_rest
  have hencoding : cursor.view.encoding = cursor.encoding := rfl
  have hword : ¬ Byte.quote.startsWord = true := by decide
  have hdigit : ¬ Byte.quote.isDigit = true := by decide
  have hzero : ¬ Byte.quote = Byte.zero := by decide
  obtain ⟨hinside, hafter⟩ := cursor.advance.view_advanceWhile_string
  rw [view_advance (by rw [hquote]; decide), hquote, Scanner.move_move] at hafter
  rw [hquote, if_neg hword, if_neg hzero, if_neg hdigit, if_pos rfl] at hread
  rw [Scanner.token, hread, token, hquote, hencoding]
  simp only [if_neg hword, if_neg hzero, if_neg hdigit, if_true, hinside]
  generalize cursor.advance.advanceWhile continuesString (by decide) = after at hafter ⊢
  have hrest : after.rest = cursor.advance.rest.dropWhile (· != Byte.quote) :=
    congrArg Scanner.rest hafter
  generalize cursor.advance.rest.takeWhile (· != Byte.quote) = inside at hafter ⊢
  cases hlater : cursor.advance.rest.dropWhile (· != Byte.quote) with
  | nil =>
      -- the text ends inside the literal, so that there is no quote to pass
      rw [hlater] at hafter hrest
      simp only [Lexeme.text, Lexeme.span, Lexeme.body, Lexeme.closing, List.append_nil]
      cases cursor.encoding.decode inside with
      | ok text => exact Prod.ext ((view_advance_of_rest_eq_nil hrest).trans hafter) rfl
      | error cause => exact Prod.ext hafter rfl
  | cons byte later =>
      obtain rfl := Lexeme.dropWhile_ne_head hlater
      rw [hlater] at hafter hrest
      simp only [Lexeme.text, Lexeme.span, Lexeme.body, Lexeme.closing]
      cases cursor.encoding.decode inside with
      | ok text =>
          have hclosed := view_advance_of_rest_eq_cons hrest
          rw [hafter, Scanner.move_move] at hclosed
          exact Prod.ext hclosed rfl
      | error cause => exact Prod.ext hafter rfl

/-- The token of a cursor is that of a scanner. -/
theorem view_token (cursor : Cursor) :
    (cursor.token.1.view, cursor.token.2) = cursor.view.token := by
  by_cases hquote : cursor.peek 0 = Byte.quote
  · exact view_token_of_quote hquote
  have hread : Lexeme.read cursor.view.rest = _ := cursor.read_rest
  rw [Scanner.token, hread, token]
  simp only [if_neg hquote]
  split
  next =>
    rw [view_advanceWhile, upTo_advanceWhile]
    simp only [Lexeme.text, Lexeme.span, Lexeme.body, Lexeme.closing, List.append_nil]
    rfl
  next =>
    split
    next hzero =>
      rw [view_advance (by rw [hzero]; decide)]
      rfl
    next =>
      split
      next =>
        rw [view_advanceWhile, upTo_advanceWhile]
        simp only [Lexeme.text, Lexeme.span, Lexeme.body, Lexeme.closing, List.append_nil]
        rfl
      next =>
        split
        next hnul =>
          have hview : cursor.view = cursor.view.move [] [] := by
            rw [view, rest_of_nul hnul]
            rfl
          exact congrArg (·, _) hview
        next hbyte =>
          rw [view_advance hbyte]
          rfl

/-- **A cursor draws what a scanner draws.** Every draw from all the bytes is the draw from those
before the first NUL byte, and it leaves the cursor where it leaves the scanner. -/
theorem view_next (cursor : Cursor) :
    (cursor.next.1.view, cursor.next.2) = cursor.view.next := by
  rw [Scanner.next, ← view_skip, next]
  rcases cursor.skip with ⟨after, report | done⟩
  · rfl
  · exact view_token after

/-- A scanner that stands where a cursor does draws the same token. -/
theorem next_view {cursor after : Cursor} {outcome : Except Fault Token}
    (hdraw : cursor.next = (after, outcome)) : cursor.view.next = (after.view, outcome) := by
  rw [← view_next, hdraw]

/-- The cursor after some draws, failed ones among them. -/
def afterDraws (cursor : Cursor) (count : Nat) : Cursor :=
  (fun cursor => cursor.next.1)^[count] cursor

theorem view_afterDraws (cursor : Cursor) (count : Nat) :
    (cursor.afterDraws count).view = cursor.view.afterDraws count := by
  induction count with
  | zero => rfl
  | succ count ih =>
      rw [Scanner.afterDraws_succ, ← ih, ← view_next, afterDraws, Function.iterate_succ_apply']
      rfl

end Cursor

end LetLang
