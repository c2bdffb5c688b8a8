import LetLang.Proofs.Suffixes
import LetLang.Proofs.Tracing

/-!
# How far draws look ahead

A draw is known from the bytes that it passes and from what stands right after them, be it a byte or
the end of the text. So are draws in a row: two sources that have the same bytes up to a position,
and show the same there, lead to the same tokens as long as the draws stay before it. What else
follows has no influence, and it is not read by a compilation that succeeds.
-/

namespace LetLang

namespace Source

/-- What shows at an offset. A NUL byte and the end of the bytes look the same. -/
def shownAt (source : Source) (offset : Nat) : Byte :=
  source.bytes.getD offset Byte.nul

/-- Whether another source of the same name has the same bytes before an offset, and the same
shows there. -/
structure AgreesTo (source other : Source) (offset : Nat) : Prop where
  file : other.file = source.file
  before : other.bytes.take offset = source.bytes.take offset
  shown : other.shownAt offset = source.shownAt offset

/-- The text from an offset on starts with what shows there, unless that is a NUL byte. -/
theorem head?_text_cut (source : Source) (offset : Nat) :
    (source.cut offset).text.head? =
      if source.shownAt offset = Byte.nul then none else some (source.shownAt offset) := by
  have hhead : (source.cut offset).bytes.head? = source.bytes[offset]? := List.head?_drop
  rw [text, List.head?_takeWhile, hhead, shownAt, List.getD_eq_getElem?_getD]
  cases source.bytes[offset]? with
  | none => rfl
  | some byte => by_cases hnul : byte = Byte.nul <;> simp [hnul]

/-- Sources that agree up to a place have texts that start with the same bytes up to there, and go
on with the same byte or end. -/
theorem AgreesTo.exists_later {source other : Source} {before rest : List Byte}
    (hagrees : source.AgreesTo other before.length) (htext : source.text = before ++ rest) :
    ∃ later, other.text = before ++ later ∧ later.head? = rest.head? := by
  have hplain : Byte.nul ∉ before := fun hbyte =>
    source.nul_not_mem_text (htext ▸ List.mem_append_left rest hbyte)
  have hbefore : other.bytes.take before.length = before := by
    rw [hagrees.before, source.text_append, htext, List.append_assoc, List.take_left]
  have hbytes := List.take_append_drop before.length other.bytes
  rw [hbefore] at hbytes
  refine ⟨(other.cut before.length).text, ?_, ?_⟩
  · have hother := text_append_of_not_mem other.file hplain (other.bytes.drop before.length)
    rw [hbytes] at hother
    exact hother
  · rw [← text_cut htext, head?_text_cut, head?_text_cut, hagrees.shown]

end Source

/-- Whether a token ends does not depend on more than the first of the bytes that follow. -/
theorem Spelling.EndsBefore.of_head? {spelling : Spelling} {first second : List Byte}
    (hends : spelling.EndsBefore first) (hhead : second.head? = first.head?) :
    spelling.EndsBefore second := by
  cases spelling with
  | string body closed =>
      intro hopen
      rw [hends hopen] at hhead
      exact List.head?_eq_none_iff.mp hhead
  | illegal byte => trivial
  | _ =>
      unfold EndsBefore
      rw [hhead]
      exact hends

namespace Scanner

/-- Whether two scanners stand at the same place of sources of one name. -/
structure Alongside (left right : Scanner) : Prop where
  file : right.source.file = left.source.file
  encoding : right.encoding = left.encoding
  position : right.position = left.position

namespace Alongside

variable {left right middle : Scanner} {token : Token}

theorem move (halong : left.Alongside right) (span rest later : List Byte) :
    (left.move span rest).Alongside (right.move span later) where
  file := halong.file
  encoding := halong.encoding
  position := congrArg (Position.through · span) halong.position

theorem locate (halong : left.Alongside right) (span : List Byte) :
    right.source.locate (right.position.through span) =
      left.source.locate (left.position.through span) := by
  rw [Source.locate, Source.locate, halong.file, halong.position]

/-- A token that is drawn from some bytes and the first one after them is drawn from the same bytes
wherever the one after them is the same. -/
theorem next_ok (halong : left.Alongside right) (hdraw : left.next = (middle, .ok token))
    {front span rest later : List Byte} (hleft : left.rest = front ++ rest)
    (hright : right.rest = front ++ later) (hhead : later.head? = rest.head?)
    (hmiddle : middle.rest = span ++ rest) :
    ∃ reached, right.next = (reached, .ok token) ∧ middle.Alongside reached ∧
      reached.rest = span ++ later := by
  rcases next_ok_cases hdraw with
    ⟨gap, spelling, tail, hgap, hvalid, hends, hrest, htext, hkind, hlocation, rfl⟩ |
    ⟨hfinal, hfinish, rfl⟩
  · -- the gap and the token stand before the place, so both scanners have them in front
    obtain rfl : tail = span ++ rest := hmiddle
    have hfront : front = gap ++ (spelling.bytes ++ span) := by
      rw [hleft, ← List.append_assoc, ← List.append_assoc] at hrest
      rw [List.append_cancel_right hrest, List.append_assoc]
    have hnext : right.rest = gap ++ (spelling.bytes ++ (span ++ later)) := by
      rw [hright, hfront, List.append_assoc, List.append_assoc]
    have hstop : spelling.EndsBefore (span ++ later) := by
      refine hends.of_head? ?_
      rw [List.head?_append, List.head?_append, hhead]
    refine ⟨right.move (gap ++ spelling.bytes) (span ++ later), ?_, halong.move _ _ _, rfl⟩
    rw [next_of_spelling hgap hvalid hstop hnext, halong.encoding, htext, halong.locate,
      ← hkind, ← hlocation]
  · -- the end has been met, so nothing follows the place
    obtain ⟨rfl, rfl⟩ := List.append_eq_nil_iff.mp hmiddle.symm
    obtain rfl := List.head?_eq_none_iff.mp hhead
    have hsame : right.rest = left.rest := hright.trans hleft.symm
    rw [next_of_isFinalGap hfinal] at hdraw
    obtain ⟨_, rfl⟩ := mk_ok_inj hdraw
    rw [← hsame] at hfinal
    refine ⟨right.move right.rest [], ?_, ?_, rfl⟩
    · rw [next_of_isFinalGap hfinal, hsame, halong.locate]
    · rw [hsame]
      exact halong.move _ _ _

end Alongside

/-- Draws that hand out tokens take some bytes off the front of what is left. -/
theorem Draws.exists_span {scanner after : Scanner} {tokens : List Token}
    (hdraws : scanner.Draws tokens after) : ∃ span, scanner.rest = span ++ after.rest := by
  induction hdraws with
  | nil => exact ⟨[], rfl⟩
  | cons hdraw _ ih =>
      obtain ⟨first, hfirst, _⟩ := exists_span_of_next hdraw
      obtain ⟨span, hspan⟩ := ih
      exact ⟨first ++ span, by rw [hfirst, hspan, List.append_assoc]⟩

/-- Tokens drawn from some bytes and the first one after them are drawn from the same bytes wherever
the one after them is the same, and on the way the positions are the same. -/
theorem Alongside.draws {left right after : Scanner} {tokens : List Token}
    (halong : left.Alongside right) (hdraws : left.Draws tokens after) {front later : List Byte}
    (hleft : left.rest = front ++ after.rest) (hright : right.rest = front ++ later)
    (hhead : later.head? = after.rest.head?) :
    right.Draws tokens (right.afterDraws tokens.length) ∧
      ∀ count ≤ tokens.length, (left.afterDraws count).Alongside (right.afterDraws count) := by
  induction hdraws generalizing right front with
  | nil =>
      refine ⟨.nil right, fun count hcount => ?_⟩
      rw [Nat.le_zero.mp hcount]
      exact halong
  | cons hdraw hdraws ih =>
      obtain ⟨span, hspan⟩ := hdraws.exists_span
      obtain ⟨reached, hnext, hreached, hrest⟩ :=
        halong.next_ok hdraw hleft hright hhead hspan
      obtain ⟨hlater, hplaces⟩ := ih hreached hspan hrest hhead
      refine ⟨.cons hnext ?_, fun count hcount => ?_⟩
      · rw [List.length_cons, afterDraws_of_next hnext]
        exact hlater
      · cases count with
        | zero => exact halong
        | succ count =>
            rw [afterDraws_of_next hdraw, afterDraws_of_next hnext]
            exact hplaces count (Nat.le_of_succ_le_succ hcount)

/-- Sources that agree up to the place where draws end lead to the same draws. -/
theorem Draws.of_agreesTo {source other : Source} {encoding : Decoder} {tokens : List Token}
    {after : Scanner} (hdraws : (ofSource source encoding).Draws tokens after)
    (hagrees : source.AgreesTo other after.position.offset) :
    (ofSource other encoding).Draws tokens ((ofSource other encoding).afterDraws tokens.length) ∧
      ∀ count ≤ tokens.length, ((ofSource source encoding).afterDraws count).Alongside
        ((ofSource other encoding).afterDraws count) := by
  have hreached : Reachable source encoding after := Reachable.start.of_draws hdraws
  obtain ⟨_, before, htext, hposition⟩ := hreached.exists_before
  rw [hposition, Position.offset_through_start] at hagrees
  obtain ⟨later, hlater, hhead⟩ := hagrees.exists_later htext
  have halong : (ofSource source encoding).Alongside (ofSource other encoding) :=
    ⟨hagrees.file, rfl, rfl⟩
  exact halong.draws hdraws htext hlater hhead

/-- Where the compilation of a source leaves the scanner. -/
def afterCompile (source : Source) (encoding : Decoder) : Scanner :=
  match (ofSource source encoding).next with
  | (after, .error _) => after
  | (after, .ok first) => (Statement.read after first).scanner

/-- A compilation that succeeds leaves the scanner where the draws of its tokens end. -/
theorem exists_draws_of_outcome {options : Options} {source : Source} {result : Result}
    (houtcome : (compile options source).outcome = .ok result) :
    ∃ (statement : Statement) (tokens : List Token) (last : Token),
      (ofSource source options.encoding).Draws (tokens ++ [last])
          (afterCompile source options.encoding) ∧
        tokens.map Token.key = statement.tokens ∧
        result = statement.result source options (tokens ++ [last]) := by
  obtain ⟨statement, tokens, last, after, hdraws, hkeys, hresult⟩ :=
    outcome_compile_eq_ok_iff.mp houtcome
  obtain ⟨_, scanner, first, hfirst, hafter⟩ := tokens_compile_of_draws hdraws hkeys
  refine ⟨statement, tokens, last, ?_, hkeys, hresult⟩
  rw [afterCompile, hfirst]
  simp only [hafter]
  exact hdraws

end Scanner

/-- **Nothing is looked at beyond the first byte that is not read.** Tokens that are drawn from a
source are drawn from every other one that agrees with it up to the position reached, and the
positions are the same after each draw. What follows may be anything. So a source that is accepted
stays accepted, with the same lines and tokens, whatever follows the position that its compilation
has come to. -/
theorem compile_looks_ahead (source other : Source) (encoding : Decoder) :
    (∀ (tokens : List Token) (after : Scanner),
      (Scanner.ofSource source encoding).Draws tokens after →
      source.AgreesTo other after.position.offset →
      (Scanner.ofSource other encoding).Draws tokens
          ((Scanner.ofSource other encoding).afterDraws tokens.length) ∧
        ∀ count ≤ tokens.length,
          ((Scanner.ofSource other encoding).afterDraws count).position =
            ((Scanner.ofSource source encoding).afterDraws count).position) ∧
    ∀ (trace : Bool) (result : Result), (compile ⟨encoding, trace⟩ source).outcome = .ok result →
      source.AgreesTo other (Scanner.afterCompile source encoding).position.offset →
      (compile ⟨encoding, trace⟩ other).outcome = .ok result ∧
        (compile ⟨encoding, trace⟩ other).tokens = (compile ⟨encoding, trace⟩ source).tokens := by
  constructor
  · intro tokens after hdraws hagrees
    obtain ⟨hother, halong⟩ := hdraws.of_agreesTo hagrees
    exact ⟨hother, fun count hcount => (halong count hcount).position⟩
  · intro trace result houtcome hagrees
    obtain ⟨statement, tokens, last, hdraws, hkeys, rfl⟩ :=
      Scanner.exists_draws_of_outcome houtcome
    obtain ⟨hother, _⟩ := Scanner.Draws.of_agreesTo hdraws hagrees
    refine ⟨?_, ?_⟩
    · rw [Statement.result, ← hagrees.file]
      exact outcome_compile_eq_ok_iff.mpr ⟨statement, tokens, last, _, hother, hkeys, rfl⟩
    · obtain ⟨htokens, _⟩ :
          (compile ⟨encoding, trace⟩ source).tokens = tokens ++ [last] ∧ _ :=
        tokens_compile_of_draws hdraws hkeys
      obtain ⟨hsame, _⟩ : (compile ⟨encoding, trace⟩ other).tokens = tokens ++ [last] ∧ _ :=
        tokens_compile_of_draws hother hkeys
      rw [htokens, hsame]

/-- A comment that never closes follows the token that is read ahead in one source, and a NUL byte
in the other one. Both show a slash after that token. -/
theorem compile_looks_ahead_slash :
    let source : Source := ⟨"slash", [0x6C, 0x65, 0x74, 0x20, 0x61, 0x3D, 0x31, 0x3B, 0x62, 0x2F,
      0x2A]⟩
    let other : Source := ⟨"slash", [0x6C, 0x65, 0x74, 0x20, 0x61, 0x3D, 0x31, 0x3B, 0x62, 0x2F,
      0x00, 0x2F]⟩
    let reached := Scanner.afterCompile source "utf-8"
    source.AgreesTo other reached.position.offset ∧
      (∃ tokens, (Scanner.ofSource source "utf-8").Draws tokens reached ∧
        (Scanner.ofSource other "utf-8").Draws tokens
          ((Scanner.ofSource other "utf-8").afterDraws tokens.length)) ∧
      ∃ result, (compile ⟨"utf-8", true⟩ source).outcome = .ok result ∧
        result.instructions = ["push 1", "pop a"] ∧
        (compile ⟨"utf-8", true⟩ other).outcome = .ok result := by
  intro source other reached
  have hoffset : reached.position.offset = 9 := by decide +kernel
  have hagrees : source.AgreesTo other reached.position.offset := by
    rw [hoffset]
    exact ⟨rfl, by decide, by decide⟩
  have hlines : ((compile ⟨"utf-8", true⟩ source).outcome.map Result.instructions).toOption =
      some ["push 1", "pop a"] := by
    decide +kernel
  obtain ⟨result, houtcome, hinstructions⟩ := exists_result_of_instructions hlines
  obtain ⟨hdrawn, hcompiled⟩ := compile_looks_ahead source other "utf-8"
  obtain ⟨_, tokens, last, hdraws, _, _⟩ := Scanner.exists_draws_of_outcome houtcome
  exact ⟨hagrees, ⟨_, hdraws, (hdrawn _ _ hdraws hagrees).1⟩, result, houtcome, hinstructions,
    (hcompiled true result houtcome hagrees).1⟩

end LetLang
