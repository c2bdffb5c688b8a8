import LetLang.Proofs.Comparison
import LetLang.Proofs.Locations

/-!
# Draws come to an end

A draw meets the end of the input or takes at least one byte off what is left, also when it fails.
So there are no more draws before the end than there are bytes, and the position only ever grows. At
the end nothing changes any more: every later draw hands out the same token from the same place.
-/

namespace LetLang

/-- Where reading stops: at the first NUL byte, or after all bytes if there is none. -/
def Source.stop (source : Source) : Nat :=
  source.bytes.idxOf Byte.nul

theorem Source.length_text (source : Source) : source.text.length = source.stop := by
  rw [text, stop]
  induction source.bytes with
  | nil => rfl
  | cons byte bytes ih =>
      by_cases hnul : byte = Byte.nul
      · simp [hnul]
      · rw [List.takeWhile_cons_of_pos (by simpa using hnul), List.length_cons, ih,
          List.idxOf_cons_ne bytes hnul]

/-- Whether a draw hands out the token of the end of the input. -/
def IsEnd (outcome : Except Fault Token) : Prop :=
  ∃ token, outcome = .ok token ∧ token.kind = .finish

theorem not_isEnd_error (fault : Fault) : ¬ IsEnd (.error fault) := by
  rintro ⟨token, htoken, _⟩
  cases htoken

instance : DecidablePred IsEnd
  | .ok token => decidable_of_iff (token.kind = .finish) (by simp [IsEnd])
  | .error fault => isFalse (not_isEnd_error fault)

namespace Scanner

/-! ## One draw -/

/-- A draw meets the end and leaves a scanner that draws the same again, or it shortens what is
left. -/
theorem next_cases (scanner : Scanner) :
    IsEnd scanner.next.2 ∧ scanner.next.1.rest = [] ∧ scanner.next.1.next = scanner.next ∨
      ¬ IsEnd scanner.next.2 ∧ scanner.next.1.rest.length < scanner.rest.length := by
  rcases hdraw : scanner.next with ⟨after, fault | token⟩
  · right
    refine ⟨not_isEnd_error fault, ?_⟩
    rcases next_error_cases hdraw with
      ⟨gap, comment, _, ⟨inside, _, rfl⟩, hrest, _, rfl⟩ |
      ⟨gap, spelling, rest, cause, _, hvalid, _, hrest, htext, _, rfl⟩
    · rw [hrest]
      simp only [move, Gap.blockOpener, List.length_append, List.length_cons, List.length_nil]
      omega
    · -- only a string can fail to be decoded, and its opening quote has been passed
      cases spelling with
      | string body closed =>
          rw [hrest, ← Spelling.span_lexeme]
          simp only [move, Lexeme.span, Spelling.lexeme, Lexeme.body, List.length_append,
            List.length_cons]
          omega
      | _ => cases htext
  · rcases next_ok_cases hdraw with
      ⟨gap, spelling, rest, _, hvalid, _, hrest, _, hkind, _, rfl⟩ | ⟨hfinal, hfinish, rfl⟩
    · right
      constructor
      · rintro ⟨_, heq, hfinish⟩
        obtain rfl := Except.ok.inj heq
        rw [hkind] at hfinish
        cases spelling <;> cases hfinish
      · have hbytes := List.length_pos_iff.mpr (Spelling.bytes_ne_nil hvalid)
        simp only [hrest, move, List.length_append]
        omega
    · left
      refine ⟨⟨token, rfl, hfinish⟩, rfl, ?_⟩
      rw [next_of_isFinalGap hfinal] at hdraw
      obtain ⟨_, rfl⟩ := mk_ok_inj hdraw
      exact next_of_isFinalGap (Or.inl Gap.isGap_nil)

theorem length_rest_next_le (scanner : Scanner) :
    scanner.next.1.rest.length ≤ scanner.rest.length := by
  rcases scanner.next_cases with ⟨_, hrest, _⟩ | ⟨_, hlength⟩
  · simp [hrest]
  · exact hlength.le

/-- A draw from nothing meets the end. -/
theorem isEnd_of_rest_eq_nil {scanner : Scanner} (hrest : scanner.rest = []) :
    IsEnd scanner.next.2 := by
  rcases scanner.next_cases with ⟨hend, _⟩ | ⟨_, hlength⟩
  · exact hend
  · rw [hrest] at hlength
    exact absurd hlength (Nat.not_lt_zero _)

/-! ## Draws in a row -/

theorem length_rest_afterDraws_le (scanner : Scanner) (count : Nat) :
    (scanner.afterDraws count).rest.length ≤ scanner.rest.length := by
  induction count with
  | zero => exact le_rfl
  | succ count ih =>
      rw [afterDraws_succ]
      exact (length_rest_next_le _).trans ih

/-- At the end every draw is the same. -/
theorem next_afterDraws_of_isEnd {scanner : Scanner} (hend : IsEnd scanner.next.2) (count : Nat) :
    (scanner.afterDraws count).next = scanner.next := by
  have hstays : scanner.next.1.next = scanner.next := by
    rcases scanner.next_cases with ⟨_, _, hsame⟩ | ⟨hother, _⟩
    · exact hsame
    · exact absurd hend hother
  induction count with
  | zero => rfl
  | succ count ih => rw [afterDraws_succ, ih, hstays]

/-- The end is met after no more draws than there are bytes left. -/
theorem exists_isEnd (scanner : Scanner) :
    ∃ count ≤ scanner.rest.length, IsEnd (scanner.afterDraws count).next.2 := by
  rcases scanner.next_cases with ⟨hend, _⟩ | ⟨_, hlength⟩
  · exact ⟨0, Nat.zero_le _, hend⟩
  · obtain ⟨count, hcount, hend⟩ := exists_isEnd scanner.next.1
    have hdraw : scanner.next = (scanner.next.1, scanner.next.2) := rfl
    refine ⟨count + 1, by omega, ?_⟩
    rw [afterDraws_of_next hdraw]
    exact hend
termination_by scanner.rest.length

/-- A scan hands out no more tokens than there are bytes left, and the end. -/
theorem length_tokens_scan_le (scanner : Scanner) :
    scanner.scan.tokens.length ≤ scanner.rest.length + 1 := by
  fun_induction scan scanner with
  | case1 => exact Nat.zero_le _
  | case2 => simp
  | case3 scanner after token hdraw hfinish _ _ ih =>
      have hlength := (length_of_next hdraw).2 hfinish
      change after.scan.tokens.length + 1 ≤ _
      omega

namespace Reachable

variable {source : Source} {encoding : Decoder} {scanner : Scanner}

theorem afterDraws (hreached : Reachable source encoding scanner) (count : Nat) :
    Reachable source encoding (scanner.afterDraws count) := by
  induction count with
  | zero => exact hreached
  | succ count ih =>
      rw [afterDraws_succ]
      exact .draw ih rfl

/-- What has been passed and what is left make up the text. -/
theorem offset_add_length (hreached : Reachable source encoding scanner) :
    scanner.position.offset + scanner.rest.length = source.stop := by
  obtain ⟨_, before, htext, hposition⟩ := hreached.exists_before
  rw [← source.length_text, htext, hposition, Position.offset_through_start, List.length_append]

end Reachable

/-- **Draws make progress and come to a permanent end.** Wherever draws have led, under any name of
an encoding, the position never goes back nor beyond the place where reading stops. A draw hands out
the end and leaves the scanner there, or it moves on by at least one byte. So one of as many draws
as there are bytes to the stop, and one more, hands out the end, and from then on every draw hands
out the same token and changes nothing. A scan has at most as many tokens, and after a comment that
never closes there is nothing but the end. -/
theorem draws_progress {source : Source} {encoding : Decoder} {scanner : Scanner}
    (hreached : Reachable source encoding scanner) :
    (∀ count, scanner.position.offset ≤ (scanner.afterDraws count).position.offset ∧
      (scanner.afterDraws count).position.offset ≤ source.stop) ∧
    (IsEnd scanner.next.2 ∧ scanner.next.1.position.offset = source.stop ∨
      ¬ IsEnd scanner.next.2 ∧
        scanner.position.offset + 1 ≤ scanner.next.1.position.offset) ∧
    (∃ count < source.stop + 1, IsEnd (scanner.afterDraws count).next.2) ∧
    (IsEnd scanner.next.2 → ∀ count, (scanner.afterDraws count).next = scanner.next ∧
      scanner.afterDraws (count + 1) = scanner.next.1) ∧
    scanner.scan.tokens.length ≤ source.stop + 1 ∧
    ∀ report, scanner.next.2 = .error (.diagnostic report) →
      report.cause = .unclosedComment ∧ scanner.next.1.position.offset = source.stop ∧
        ∀ count, IsEnd (scanner.next.1.afterDraws count).next.2 := by
  have hstop := hreached.offset_add_length
  have hdraw : scanner.next = (scanner.next.1, scanner.next.2) := rfl
  have hnext := (hreached.draw hdraw).offset_add_length
  refine ⟨fun count => ?_, ?_, ?_, fun hend count => ?_, ?_, fun report hreport => ?_⟩
  · have hlength := scanner.length_rest_afterDraws_le count
    have hlater := (hreached.afterDraws count).offset_add_length
    omega
  · rcases scanner.next_cases with ⟨hend, hrest, _⟩ | ⟨hother, hlength⟩
    · rw [hrest, List.length_nil] at hnext
      exact Or.inl ⟨hend, hnext⟩
    · exact Or.inr ⟨hother, by omega⟩
  · obtain ⟨count, hcount, hend⟩ := scanner.exists_isEnd
    exact ⟨count, by omega, hend⟩
  · have hsame := next_afterDraws_of_isEnd hend count
    exact ⟨hsame, by rw [afterDraws_succ, hsame]⟩
  · have hlength := scanner.length_tokens_scan_le
    omega
  · rw [hreport] at hdraw
    rcases next_error_cases hdraw with ⟨_, _, _, _, _, hfault, hafter⟩ |
      ⟨_, _, _, _, _, _, _, _, _, hfault, _⟩
    · have hrest : scanner.next.1.rest = [] := congrArg Scanner.rest hafter
      have hend := isEnd_of_rest_eq_nil hrest
      rw [hrest, List.length_nil] at hnext
      refine ⟨?_, hnext, fun count => ?_⟩
      · rw [Fault.diagnostic.inj hfault]
        rfl
      · rw [next_afterDraws_of_isEnd hend]
        exact hend
    · cases hfault

/-- Under a name that no text can be decoded by, a literal, an empty one, a comment that never
closes before a NUL byte, and the end. -/
theorem draws_progress_undecoded :
    let source : Source := ⟨"undecoded", [0x22, 0x71, 0x22, 0x22, 0x2F, 0x2A, 0x00, 0x2A, 0x2F]⟩
    let first := ofSource source "hex"
    let opener := first.afterDraws 2
    let last := first.afterDraws 3
    let unclosed : Diagnostic := ⟨.unclosedComment, some ⟨"undecoded", 1, 5⟩,
      some "\"q\"\"/*\x00*/"⟩
    source.stop = 6 ∧
      (Reachable source "hex" first ∧ ¬ IsEnd first.next.2 ∧ first.next.1.position.offset = 2 ∧
        ∃ count < source.stop + 1, IsEnd (first.afterDraws count).next.2) ∧
      (Reachable source "hex" opener ∧ opener.next.2 = .error (.diagnostic unclosed) ∧
        opener.next.1.position.offset = source.stop ∧
        ∀ count, IsEnd (opener.next.1.afterDraws count).next.2) ∧
      Reachable source "hex" last ∧ IsEnd last.next.2 ∧
        ∀ count, (last.afterDraws count).next = last.next ∧
          last.afterDraws (count + 1) = last.next.1 := by
  intro source first opener last unclosed
  have hfirst : Reachable source "hex" first := .start
  have hopener : Reachable source "hex" opener := hfirst.afterDraws 2
  have hlast : Reachable source "hex" last := hfirst.afterDraws 3
  have hend : IsEnd last.next.2 := by decide +kernel
  have hunclosed : opener.next.2 = .error (.diagnostic unclosed) := by
    have hfault : (match opener.next.2 with
        | .ok _ => none
        | .error fault => some fault) = some (.diagnostic unclosed) := by decide +kernel
    cases houtcome : opener.next.2 with
    | ok token => simp [houtcome] at hfault
    | error fault =>
        simp only [houtcome, Option.some.injEq] at hfault
        rw [hfault]
  obtain ⟨_, _, hcount, _⟩ := draws_progress hfirst
  obtain ⟨_, _, _, _, _, hcomment⟩ := draws_progress hopener
  obtain ⟨_, _, _, hstays, _⟩ := draws_progress hlast
  obtain ⟨_, hoffset, hlater⟩ := hcomment unclosed hunclosed
  exact ⟨by decide, ⟨hfirst, by decide +kernel, by decide +kernel, hcount⟩,
    ⟨hopener, hunclosed, hoffset, hlater⟩, hlast, hend, hstays hend⟩

end Scanner

end LetLang
