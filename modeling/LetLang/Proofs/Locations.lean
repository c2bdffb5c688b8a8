import LetLang.Proofs.Positions
import LetLang.Proofs.Verdicts

/-!
# Where messages point

Whatever has been drawn from a scanner, its position is that of the bytes it has passed. So the
location of a token and of a comment that never closes are those of their first byte, and the
line that a diagnostic quotes shows at the column of its caret what the diagnostic is about.
-/

namespace LetLang

namespace Scanner

/-- A draw takes some bytes off the front of what is left, whether it fails or not. -/
theorem exists_span_of_next {scanner after : Scanner} {outcome : Except Fault Token}
    (hdraw : scanner.next = (after, outcome)) :
    ∃ span, scanner.rest = span ++ after.rest ∧ after = scanner.move span after.rest := by
  have hgap := Gap.bytes_read scanner.rest
  cases hread : Gap.read scanner.rest with
  | clear gap rest =>
      have hlexeme := Lexeme.span_append_read rest
      rw [hread, Gap.bytes] at hgap
      rw [next_of_read hread, token] at hdraw
      dsimp only at hdraw
      split at hdraw <;> obtain ⟨rfl, _⟩ := Prod.mk.inj hdraw
      · refine ⟨gap ++ (Lexeme.read rest).1.span, ?_, by simp [move]⟩
        rw [← hgap, List.append_assoc]
        exact congrArg (gap ++ ·) hlexeme.symm
      · -- a literal that cannot be decoded is left at its closing quote
        refine ⟨gap ++ (Lexeme.read rest).1.body, ?_, by simp [move]⟩
        rw [Lexeme.span, List.append_assoc] at hlexeme
        rw [← hgap, List.append_assoc]
        exact congrArg (gap ++ ·) hlexeme.symm
  | unclosed gap comment =>
      rw [hread, Gap.bytes] at hgap
      rw [next_of_read_unclosed hread] at hdraw
      obtain ⟨rfl, _⟩ := Prod.mk.inj hdraw
      exact ⟨gap ++ comment, by simp [move, hgap], by simp [move]⟩

/-- The scanners that draws from the start of a source lead to, failed ones among them. -/
inductive Reachable (source : Source) (encoding : Decoder) : Scanner → Prop where
  | start : Reachable source encoding (ofSource source encoding)
  | draw {scanner after : Scanner} {outcome : Except Fault Token}
      (hreached : Reachable source encoding scanner) (hdraw : scanner.next = (after, outcome)) :
      Reachable source encoding after

namespace Reachable

variable {source : Source} {encoding : Decoder} {scanner after : Scanner}

/-- A scanner stands after the bytes it has passed, and the rest of the text is left. -/
theorem exists_before (hreached : Reachable source encoding scanner) :
    scanner.source = source ∧ ∃ before, source.text = before ++ scanner.rest ∧
      scanner.position = Position.start.through before := by
  induction hreached with
  | start => exact ⟨rfl, [], rfl, rfl⟩
  | draw _ hdraw ih =>
      obtain ⟨hsource, before, htext, hposition⟩ := ih
      obtain ⟨span, hrest, hafter⟩ := exists_span_of_next hdraw
      refine ⟨(source_of_next hdraw).1.trans hsource, before ++ span, ?_, ?_⟩
      · rw [htext, hrest, List.append_assoc]
      · rw [hafter, move, hposition, Position.through_append]

theorem encoding_eq (hreached : Reachable source encoding scanner) :
    scanner.encoding = encoding := by
  induction hreached with
  | start => rfl
  | draw _ hdraw ih => exact (source_of_next hdraw).2.trans ih

theorem of_draws {tokens : List Token} (hreached : Reachable source encoding scanner)
    (hdraws : scanner.Draws tokens after) : Reachable source encoding after := by
  induction hdraws with
  | nil => exact hreached
  | cons hdraw _ ih => exact ih (.draw hreached hdraw)

end Reachable

end Scanner

/-! ## Tokens at their places -/

/-- Whether a gap and the bytes after it are what the draw of a token takes off a text. -/
def Token.CutAs (token : Token) (gap spelled : List Byte) : Prop :=
  match token.kind with
  | .finish => Gap.IsFinalGap gap ∧ spelled = []
  | .string => Gap.IsGap gap ∧ spelled.head? = some Byte.quote
  | _ => Gap.IsGap gap ∧ latinText spelled = token.text

/-- Whether characters start with a token as it is written: with the quote of a string, and
with the text of any other token. The end of the input is not written. -/
def Token.Heads (token : Token) (shown : List Char) : Prop :=
  match token.kind with
  | .finish => True
  | .string => shown.head? = some '"'
  | _ => shown.take token.text.toList.length = token.text.toList

/-- The characters of a source line from the column of a position on, as messages quote it. -/
def Source.shownFrom (source : Source) (position : Position) : List Char :=
  (source.line position.line).toList.drop (position.column - 1)

theorem Source.text_append (source : Source) :
    source.bytes = source.text ++ source.bytes.dropWhile (· != Byte.nul) :=
  (List.takeWhile_append_dropWhile).symm

theorem Source.nul_not_mem_text (source : Source) : Byte.nul ∉ source.text := fun hmem =>
  bne_iff_ne.mp (List.mem_takeWhile_imp (p := (· != Byte.nul)) hmem) rfl

/-- Bytes that are no NUL bytes belong to the text, whatever follows them. -/
theorem Source.text_append_of_not_mem (file : String) {front : List Byte}
    (hfront : Byte.nul ∉ front) (later : List Byte) :
    (⟨file, front ++ later⟩ : Source).text = front ++ (⟨file, later⟩ : Source).text :=
  List.takeWhile_append_of_pos fun _ hbyte => bne_iff_ne.mpr (ne_of_mem_of_not_mem hbyte hfront)

namespace Token

variable {token : Token} {spelling : Spelling} {encoding : Decoder}

theorem cutAs_of_spelling (hkind : token.kind = spelling.kind)
    (htext : spelling.textBy encoding = .ok token.text) {gap : List Byte} (hgap : Gap.IsGap gap) :
    token.CutAs gap spelling.bytes := by
  rw [CutAs, hkind]
  cases spelling with
  | string body closed => exact ⟨hgap, rfl⟩
  | _ => exact ⟨hgap, Except.ok.inj htext⟩

theorem heads_of_spelling (hkind : token.kind = spelling.kind) (hvalid : spelling.Valid)
    (htext : spelling.textBy encoding = .ok token.text) {source : Source}
    {before after : List Byte} (hbytes : source.bytes = before ++ (spelling.bytes ++ after)) :
    token.Heads (source.shownFrom (source.positionAt before.length)) := by
  -- all but a string is shown whole, as it holds no blank
  have hshows (hother : spelling.kind ≠ .string) (hplain : latinText spelling.bytes = token.text) :
      (source.shownFrom (source.positionAt before.length)).take token.text.toList.length =
        token.text.toList := by
    rw [← hplain, latinText, String.toList_ofList, List.length_map]
    exact source.line_shows hbytes (Spelling.isBlank_of_mem hvalid hother)
  rw [Heads, hkind]
  cases spelling with
  | string body closed =>
      rw [Spelling.bytes, List.cons_append, List.cons_append, ← List.singleton_append] at hbytes
      have hquote := congrArg List.head?
        (source.line_shows hbytes (List.forall_mem_singleton.mpr Byte.isBlank_quote))
      rw [List.head?_take, if_neg (by decide)] at hquote
      exact hquote
  | _ => exact hshows (by simp [Spelling.kind]) (Except.ok.inj htext)

end Token

namespace Scanner

namespace Reachable

variable {source : Source} {encoding : Decoder} {scanner after : Scanner}

/-- The location of a token is the place of its first byte, and the line of that place shows
the token at its column. -/
theorem exists_place {token : Token} (hreached : Reachable source encoding scanner)
    (hdraw : scanner.next = (after, .ok token)) :
    ∃ before gap spelled rest, source.text = before ++ gap ++ spelled ++ rest ∧
      scanner.position.offset = before.length ∧
      after.position.offset = (before ++ gap ++ spelled).length ∧ token.CutAs gap spelled ∧
      token.location = some (source.locate (source.positionAt (before ++ gap).length)) ∧
      token.Heads (source.shownFrom (source.positionAt (before ++ gap).length)) := by
  obtain ⟨hsource, before, htext, hposition⟩ := hreached.exists_before
  have hoffset : scanner.position.offset = before.length := by
    rw [hposition, Position.offset_through_start]
  have hbytes := source.text_append
  rcases next_ok_cases hdraw with
    ⟨gap, spelling, rest, hgap, hvalid, _, hrest, hspelled, hkind, hlocation, rfl⟩ |
    ⟨hfinal, _, _⟩
  · rw [hrest, ← List.append_assoc, ← List.append_assoc] at htext
    rw [htext, List.append_assoc, List.append_assoc (before ++ gap)] at hbytes
    rw [hposition, ← Position.through_append, ← Source.positionAt_length hbytes, hsource]
      at hlocation
    refine ⟨before, gap, spelling.bytes, rest, htext, hoffset, ?_,
      Token.cutAs_of_spelling hkind hspelled hgap, hlocation,
      Token.heads_of_spelling hkind hvalid hspelled hbytes⟩
    simp [move, hoffset, Nat.add_assoc]
  · rw [next_of_isFinalGap hfinal] at hdraw
    obtain ⟨rfl, rfl⟩ := mk_ok_inj hdraw
    rw [htext] at hbytes
    refine ⟨before, scanner.rest, [], [], by simp [htext], hoffset, by simp [move, hoffset],
      ⟨hfinal, rfl⟩, ?_, trivial⟩
    rw [Source.positionAt_length hbytes, hposition, ← Position.through_append, hsource]

/-- The location of a comment that never closes is the place of its opener, and the line of
that place shows the opener at its column. -/
theorem exists_opener {report : Diagnostic} (hreached : Reachable source encoding scanner)
    (hdraw : scanner.next = (after, .error (.diagnostic report))) :
    ∃ before gap comment, source.text = before ++ gap ++ comment ∧
      scanner.position.offset = before.length ∧ Gap.IsGap gap ∧ Gap.IsUnclosed comment ∧
      report = ⟨.unclosedComment, some (source.locate (source.positionAt (before ++ gap).length)),
        some (source.line (source.positionAt (before ++ gap).length).line)⟩ ∧
      (source.shownFrom (source.positionAt (before ++ gap).length)).take 2 = ['/', '*'] := by
  obtain ⟨hsource, before, htext, hposition⟩ := hreached.exists_before
  have hoffset : scanner.position.offset = before.length := by
    rw [hposition, Position.offset_through_start]
  rcases next_error_cases hdraw with
    ⟨gap, comment, hgap, hcomment, hrest, hreport, _⟩ | ⟨_, _, _, _, _, _, _, _, _, hfault, _⟩
  · obtain ⟨inside, hinside, rfl⟩ := hcomment
    rw [hrest, ← List.append_assoc] at htext
    have hbytes := source.text_append
    rw [htext, List.append_assoc (before ++ gap), List.append_assoc Gap.blockOpener] at hbytes
    have hplace := Source.positionAt_length hbytes
    have hopener : ∀ byte ∈ Gap.blockOpener, byte.isBlank = false :=
      List.forall_mem_cons.mpr ⟨rfl, List.forall_mem_singleton.mpr rfl⟩
    refine ⟨before, gap, _, htext, hoffset, hgap, ⟨inside, hinside, rfl⟩, ?_,
      source.line_shows hbytes hopener⟩
    rw [Fault.diagnostic.inj hreport, unclosedComment, move, hsource, hplace,
      Position.through_append, ← hposition]
    rfl
  · cases hfault

end Reachable

end Scanner

/-! ## Diagnostics -/

/-- Whether a diagnostic points to a position of a source: it names the place, quotes its line as
it stands in the source, and is shown with the caret right below the quoted line, under the column
of the position. -/
structure Diagnostic.PointsTo (report : Diagnostic) (source : Source) (position : Position) :
    Prop where
  location : report.location = some (source.locate position)
  quoted : report.sourceLine = some (source.line position.line)
  caret : report.render = "\n".intercalate (report.heading ::
    ("    " ++ source.line position.line) ::
    String.ofList (List.replicate (4 + position.column - 1) ' ' ++ ['^']) ::
    report.hintLine.toList)

/-- A diagnostic that names a place and quotes its line has its caret under the place. -/
theorem Diagnostic.pointsTo_positionAt {report : Diagnostic} {source : Source} {offset : Nat}
    (hlocation : report.location = some (source.locate (source.positionAt offset)))
    (hquoted : report.sourceLine = some (source.line (source.positionAt offset).line)) :
    report.PointsTo source (source.positionAt offset) := by
  refine ⟨hlocation, hquoted, ?_⟩
  have hcolumn : (0 : Int) < (source.positionAt offset).column := by
    simp only [Source.positionAt]
    omega
  have hwidth : (source.positionAt offset).column + 3 =
      4 + (source.positionAt offset).column - 1 := by
    omega
  rw [render, lines, quotation, hlocation, hquoted]
  simp only [Source.locate, Location.ofPosition, caretLine, if_pos hcolumn, Int.toNat_natCast,
    hwidth, Option.toList_some, List.cons_append, List.nil_append]

open Statement in
/-- **Locations, quoted lines and carets point at the text.** Wherever draws have led, the location
of the next token is the place of its first byte, or that of the end, and a comment that never
closes is reported at its opener. So what a failed compilation reports is shown by the quoted
line at the column of the caret. -/
theorem diagnostics_point (source : Source) :
    (∀ (encoding : Decoder) (scanner after : Scanner) (token : Token),
      Scanner.Reachable source encoding scanner → scanner.next = (after, .ok token) →
      ∃ before gap spelled rest, source.text = before ++ gap ++ spelled ++ rest ∧
        scanner.position.offset = before.length ∧
        after.position.offset = (before ++ gap ++ spelled).length ∧ token.CutAs gap spelled ∧
        token.location = some (source.locate (source.positionAt (before ++ gap).length))) ∧
    (∀ (encoding : Decoder) (scanner after : Scanner) (report : Diagnostic),
      Scanner.Reachable source encoding scanner →
      scanner.next = (after, .error (.diagnostic report)) →
      ∃ before gap comment, source.text = before ++ gap ++ comment ∧
        scanner.position.offset = before.length ∧ Gap.IsGap gap ∧ Gap.IsUnclosed comment ∧
        report.cause = .unclosedComment ∧
        report.location = some (source.locate (source.positionAt (before ++ gap).length))) ∧
    ∀ (options : Options) (report : Diagnostic),
      (compile options source).outcome = .error (.diagnostic report) →
      ∃ offset, report.PointsTo source (source.positionAt offset) ∧
        match report.cause with
        | .unclosedComment => (source.shownFrom (source.positionAt offset)).take 2 = ['/', '*']
        | .unexpectedToken found _ =>
            ∃ token, (compile options source).tokens.getLast? = some token ∧
              token.text = found ∧ token.location = report.location ∧
              token.Heads (source.shownFrom (source.positionAt offset))
        | _ => False := by
  refine ⟨fun encoding scanner after token hreached hdraw => ?_,
    fun encoding scanner after report hreached hdraw => ?_, fun options report hreport => ?_⟩
  · obtain ⟨before, gap, spelled, rest, htext, hoffset, hafter, hcut, hlocation, _⟩ :=
      hreached.exists_place hdraw
    exact ⟨before, gap, spelled, rest, htext, hoffset, hafter, hcut, hlocation⟩
  · obtain ⟨before, gap, comment, htext, hoffset, hgap, hcomment, rfl, _⟩ :=
      hreached.exists_opener hdraw
    exact ⟨before, gap, comment, htext, hoffset, hgap, hcomment, rfl, rfl⟩
  · cases compile_verdict options source with
    | accepted _ _ _ _ _ _ _ _ _ houtcome =>
        rw [hreport] at houtcome
        cases houtcome
    | refused before token after reached needed _ _ hdraws _ _ _ htokens houtcome =>
        rw [hreport, Except.error.injEq, Fault.diagnostic.injEq] at houtcome
        subst houtcome
        obtain ⟨middle, hbefore, hdraw⟩ := Scanner.Draws.concat_iff.mp hdraws
        obtain ⟨passed, gap, _, _, _, _, _, _, hlocation, hheads⟩ :=
          (Scanner.Reachable.start.of_draws hbefore).exists_place hdraw
        refine ⟨(passed ++ gap).length, Diagnostic.pointsTo_positionAt hlocation ?_, token, ?_,
          rfl, rfl, hheads⟩
        · rw [unexpected, hlocation]
          rfl
        · rw [htokens, List.getLast?_concat]
    | failed tokens middle after fault reached _ hdraws _ hdraw _ houtcome =>
        rw [hreport, Except.error.injEq] at houtcome
        subst houtcome
        obtain ⟨passed, gap, _, _, _, _, _, rfl, hopener⟩ :=
          (Scanner.Reachable.start.of_draws hdraws).exists_opener hdraw
        exact ⟨(passed ++ gap).length, Diagnostic.pointsTo_positionAt rfl rfl, hopener⟩

/-- A refused mark on a line that ends in carriage returns, after a comment of two lines, and a
comment that never closes on the last line. -/
theorem diagnostics_point_trimmed_line :
    let source : Source := ⟨"trimmed", [0x2F, 0x2A, 0x0A, 0x2A, 0x2F, 0x6C, 0x65, 0x74, 0x20, 0x61,
      0x0D, 0x0A, 0x3D, 0x2A, 0x0D, 0x0D, 0x0A, 0x2F, 0x2A]⟩
    let first := Scanner.ofSource source "utf-8"
    let last := first.next.1.next.1.next.1.next.1
    let refused : Diagnostic := ⟨.unexpectedToken "*" (some "number or identifier"),
      some ⟨"trimmed", 3, 2⟩, some "=*"⟩
    let unclosed : Diagnostic := ⟨.unclosedComment, some ⟨"trimmed", 4, 1⟩, some "/*"⟩
    (Scanner.Reachable source "utf-8" first ∧ ∃ after token, first.next = (after, .ok token) ∧
      ∃ before gap spelled rest, source.text = before ++ gap ++ spelled ++ rest ∧
        first.position.offset = before.length ∧
        after.position.offset = (before ++ gap ++ spelled).length ∧ token.CutAs gap spelled ∧
        token.location = some (source.locate (source.positionAt (before ++ gap).length))) ∧
    (Scanner.Reachable source "utf-8" last ∧
      ∃ after, last.next = (after, .error (.diagnostic unclosed)) ∧
      ∃ before gap comment, source.text = before ++ gap ++ comment ∧
        last.position.offset = before.length ∧ Gap.IsGap gap ∧ Gap.IsUnclosed comment ∧
        unclosed.cause = .unclosedComment ∧
        unclosed.location = some (source.locate (source.positionAt (before ++ gap).length))) ∧
    (compile .standard source).outcome = .error (.diagnostic refused) ∧
    ∃ offset, refused.PointsTo source (source.positionAt offset) ∧
      ∃ token, (compile .standard source).tokens.getLast? = some token ∧ token.text = "*" ∧
        token.location = refused.location ∧
        token.Heads (source.shownFrom (source.positionAt offset)) := by
  intro source first last refused unclosed
  obtain ⟨htokens, hopeners, hreports⟩ := diagnostics_point source
  have hfirst : Scanner.Reachable source "utf-8" first := .start
  have hlast : Scanner.Reachable source "utf-8" last :=
    .draw (.draw (.draw (.draw hfirst rfl) rfl) rfl) rfl
  refine ⟨⟨hfirst, ?_⟩, ⟨hlast, ?_⟩, ?_⟩
  · have hdrawn : first.next.2.toOption.isSome = true := by decide +kernel
    rcases hdraw : first.next with ⟨after, fault | token⟩
    · simp [hdraw, Except.toOption] at hdrawn
    · exact ⟨after, token, rfl, htokens _ _ _ _ hfirst hdraw⟩
  · have hfailed : (match last.next.2 with
        | .ok _ => none
        | .error fault => some fault) = some (.diagnostic unclosed) := by decide +kernel
    rcases hdraw : last.next with ⟨after, fault | token⟩
    · simp only [hdraw, Option.some.injEq] at hfailed
      subst hfailed
      exact ⟨after, rfl, hopeners _ _ _ _ hlast hdraw⟩
    · simp [hdraw] at hfailed
  · have hfailed : (match (compile .standard source).outcome with
        | .ok _ => none
        | .error fault => some fault) = some (.diagnostic refused) := by decide +kernel
    cases houtcome : (compile .standard source).outcome with
    | ok result => simp [houtcome] at hfailed
    | error fault =>
        simp only [houtcome, Option.some.injEq] at hfailed
        subst hfailed
        exact ⟨rfl, hreports .standard refused houtcome⟩

end LetLang
