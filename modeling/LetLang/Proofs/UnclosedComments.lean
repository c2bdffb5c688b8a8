import LetLang.Proofs.GapSkipping
import LetLang.Proofs.Scanning
import LetLang.Proofs.Sharing

/-!
# Comments that never close

A block comment is closed by the first star and slash behind its opener, so what stands inside opens
nothing, and neither does what stands in a line comment or in a token. A comment that is still open
where reading stops is reported at its opener, however far it runs. The draw that reports it hands
out no token.
-/

namespace LetLang

namespace Gap

/-- Whether a comment never closes is seen by reading the gap. -/
instance : DecidablePred EndsUnclosed := fun text =>
  match hread : read text with
  | .clear _ _ => isFalse <| by
      rintro ⟨gap, comment, hgap, hcomment, htext⟩
      rw [read_eq_unclosed_iff.mpr ⟨hgap, hcomment, htext⟩] at hread
      cases hread
  | .unclosed gap comment => isTrue ⟨gap, comment, read_eq_unclosed_iff.mp hread⟩

/-- Comments in front of a text open nothing in it, whatever stands inside them. -/
theorem endsUnclosed_append_iff {gap : List Byte} (hgap : IsGap gap) (rest : List Byte) :
    EndsUnclosed (gap ++ rest) ↔ EndsUnclosed rest := by
  constructor
  · rintro ⟨front, comment, hfront, hcomment, htext⟩
    have hread := read_eq_unclosed_iff.mpr ⟨hfront, hcomment, htext⟩
    rw [read_append hgap] at hread
    cases hrest : read rest with
    | clear span left =>
        rw [hrest] at hread
        cases hread
    | unclosed span left => exact ⟨span, left, read_eq_unclosed_iff.mp hrest⟩
  · rintro ⟨span, comment, hspan, hcomment, rfl⟩
    exact ⟨gap ++ span, comment, hgap.append hspan, hcomment, (List.append_assoc ..).symm⟩

theorem not_endsUnclosed_of_isFinalGap {text : List Byte} (hfinal : IsFinalGap text) :
    ¬ EndsUnclosed text := by
  rintro ⟨gap, comment, hgap, hcomment, htext⟩
  have hread := read_eq_unclosed_iff.mpr ⟨hgap, hcomment, htext⟩
  rw [read_of_isFinalGap hfinal] at hread
  cases hread

end Gap

/-- A token opens no comment, whatever it is written with. -/
theorem Spelling.not_endsUnclosed_append {spelling : Spelling} (hvalid : spelling.Valid)
    {rest : List Byte} (hends : spelling.EndsBefore rest) :
    ¬ Gap.EndsUnclosed (spelling.bytes ++ rest) := by
  rintro ⟨gap, comment, hgap, hcomment, htext⟩
  have hread := Gap.read_eq_unclosed_iff.mpr ⟨hgap, hcomment, htext⟩
  rw [Gap.read_of_clear (front_append hvalid hends)] at hread
  cases hread

namespace Scanner

variable {source : Source} {encoding : Decoder} {scanner : Scanner}

/-- Whether a draw reports a block comment that never closes. -/
def ReportsUnclosed (scanner : Scanner) : Prop :=
  ∃ report, scanner.next.2 = .error (.diagnostic report) ∧ report.cause = .unclosedComment

theorem reportsUnclosed_iff (scanner : Scanner) :
    scanner.ReportsUnclosed ↔ Gap.EndsUnclosed scanner.rest := by
  constructor
  · rintro ⟨report, hreport, _⟩
    rcases next_error_cases (Prod.ext rfl hreport) with ⟨gap, comment, hgap, hcomment, hrest, _⟩ |
      ⟨_, _, _, _, _, _, _, _, _, hfault, _⟩
    · exact ⟨gap, comment, hgap, hcomment, hrest⟩
    · cases hfault
  · rintro ⟨gap, comment, hgap, hcomment, hrest⟩
    rw [ReportsUnclosed, scanner.next_of_unclosed hgap hcomment hrest]
    exact ⟨_, rfl, rfl⟩

/-- A comment that never closes is reported at its opener, and the line of that place shows the
opener at its column. -/
theorem Reachable.next_of_unclosed (hreached : Reachable source encoding scanner)
    {gap comment : List Byte} (hgap : Gap.IsGap gap) (hcomment : Gap.IsUnclosed comment)
    (hrest : scanner.rest = gap ++ comment) :
    let opener := source.positionAt (scanner.position.offset + gap.length)
    scanner.next = (scanner.move scanner.rest [], .error (.diagnostic
        ⟨.unclosedComment, some (source.locate opener), some (source.line opener.line)⟩)) ∧
      (source.shownFrom opener).take 2 = ['/', '*'] := by
  have hdraw := scanner.next_of_unclosed hgap hcomment hrest
  obtain ⟨before, other, left, htext, hoffset, hother, hleft, hreport, hshown⟩ :=
    hreached.exists_opener hdraw
  -- what is left can be read in one way only, so the opener is this one
  have hreads : scanner.rest = other ++ left := by
    rw [hreached.rest_eq_between, hoffset, Source.between, ← source.text_eq_take, htext,
      List.append_assoc, List.drop_left]
  have hread := Gap.read_eq_unclosed_iff.mpr ⟨hother, hleft, hreads⟩
  rw [Gap.read_eq_unclosed_iff.mpr ⟨hgap, hcomment, hrest⟩] at hread
  obtain ⟨rfl, rfl⟩ := Gap.unclosed.inj hread
  rw [List.length_append, ← hoffset] at hreport hshown
  rw [hdraw, hreport]
  exact ⟨rfl, hshown⟩

/-- **Comments that never close are found exactly.** Wherever draws have led, a draw reports one if
and only if what is left is a gap and then an opener with no closer behind it. It does not matter
what stands inside the comments of the gap, and there is no such report in front of a token or in a
line comment, whatever these are written with. The report names the place of the opener and quotes
its line, which shows it there. The draw hands out no token, and none is recorded. -/
theorem reports_unclosed_iff (hreached : Reachable source encoding scanner) :
    let first := scanner.position.offset
    let left := source.between first source.stop
    (scanner.ReportsUnclosed ↔ Gap.EndsUnclosed left) ∧
    (∀ gap rest, Gap.IsGap gap → left = gap ++ rest →
      (scanner.ReportsUnclosed ↔ Gap.EndsUnclosed rest)) ∧
    (∀ (gap : List Byte) (spelling : Spelling) (rest : List Byte), Gap.IsGap gap →
      spelling.Valid → spelling.EndsBefore rest → left = gap ++ (spelling.bytes ++ rest) →
      ¬ scanner.ReportsUnclosed) ∧
    (Gap.IsFinalGap left → ¬ scanner.ReportsUnclosed) ∧
    ∀ gap comment, Gap.IsGap gap → Gap.IsUnclosed comment → left = gap ++ comment →
      let opener := source.positionAt (first + gap.length)
      let report : Diagnostic :=
        ⟨.unclosedComment, some (source.locate opener), some (source.line opener.line)⟩
      scanner.next.2 = .error (.diagnostic report) ∧
      (source.shownFrom opener).take 2 = ['/', '*'] ∧
      scanner.scan.tokens = [] ∧
      ∀ (session : Session) (number : Nat) (tape : Tape), tape.scanner = scanner →
        session.draw number tape =
          ({ session with scanners :=
              session.scanners.set number { tape with scanner := scanner.next.1 } },
            .error (.diagnostic report)) := by
  intro first left
  have hleft : scanner.rest = left := hreached.rest_eq_between
  have hreports : scanner.ReportsUnclosed ↔ Gap.EndsUnclosed left := by
    rw [reportsUnclosed_iff, hleft]
  refine ⟨hreports, ?_, ?_, ?_, ?_⟩
  · intro gap rest hgap hrest
    rw [hreports, hrest, Gap.endsUnclosed_append_iff hgap]
  · intro gap spelling rest hgap hvalid hends hrest
    rw [hreports, hrest, Gap.endsUnclosed_append_iff hgap]
    exact Spelling.not_endsUnclosed_append hvalid hends
  · intro hfinal
    rw [hreports]
    exact Gap.not_endsUnclosed_of_isFinalGap hfinal
  · intro gap comment hgap hcomment hrest opener report
    obtain ⟨hdraw, hshown⟩ := hreached.next_of_unclosed hgap hcomment (hleft.trans hrest)
    have hfault : scanner.next.2 = .error (.diagnostic report) := congrArg Prod.snd hdraw
    refine ⟨hfault, hshown, ?_, ?_⟩
    · rw [scan_of_error hdraw]
    · intro session number tape htape
      rw [Session.draw_eq, htape, hfault, Tape.handing, List.filterMap_cons_none rfl,
        List.filterMap_nil, List.append_nil]

/-- A literal and comments that hold openers, and a comment of two lines that only a closer beyond a
NUL byte would close. -/
theorem reports_unclosed_iff_overlapping :
    let source : Source := ⟨"spans", [0x61, 0x22, 0x2F, 0x2A, 0x22, 0x2F, 0x2F, 0x2F, 0x2A, 0x0A,
      0x2F, 0x2A, 0x61, 0x2F, 0x2A, 0x2A, 0x2F, 0x20, 0x2F, 0x2A, 0x2F, 0x62, 0x0A, 0x2A, 0x00,
      0x2A, 0x2F]⟩
    let quoted := (ofSource source "utf-8").next.1
    let opened := quoted.next.1
    let opener : Position := ⟨18, 2, 9⟩
    let report : Diagnostic := ⟨.unclosedComment, some ⟨"spans", 2, 9⟩, some "/*a/**/ /*/b"⟩
    (Reachable source "utf-8" quoted ∧ ¬ quoted.ReportsUnclosed) ∧
    (Reachable source "utf-8" opened ∧ opened.ReportsUnclosed ∧
      opened.next.2 = .error (.diagnostic report) ∧
      (source.shownFrom opener).take 2 = ['/', '*'] ∧ opened.scan.tokens = []) ∧
    (∀ text ∈ ([[0x2F, 0x2A, 0x2F], [0x2F, 0x2A, 0x20, 0x2A], [0x2F, 0x2A, 0x2A, 0x20, 0x2F]] :
      List (List Byte)), Gap.EndsUnclosed text) ∧
    ∀ text ∈ ([[0x2F, 0x2A, 0x2A, 0x2F], [0x2F, 0x2A, 0x61, 0x2A, 0x2A, 0x2F],
      [0x2F, 0x2F, 0x2F, 0x2A]] : List (List Byte)), ¬ Gap.EndsUnclosed text := by
  intro source quoted opened opener report
  let gap : List Byte :=
    [0x2F, 0x2F, 0x2F, 0x2A, 0x0A, 0x2F, 0x2A, 0x61, 0x2F, 0x2A, 0x2A, 0x2F, 0x20]
  let comment : List Byte := [0x2F, 0x2A, 0x2F, 0x62, 0x0A, 0x2A]
  have hliteral : (Spelling.string [0x2F, 0x2A] true).Valid :=
    show Byte.quote ∉ [0x2F, 0x2A] by decide
  have hquoted : Reachable source "utf-8" quoted := .draw .start rfl
  have hopened : Reachable source "utf-8" opened := .draw hquoted rfl
  have hfirst : quoted.position.offset = 1 := by decide +kernel
  have hsecond : opened.position.offset = 5 := by decide +kernel
  have hgap : Gap.IsGap gap :=
    ⟨[.lineComment [0x2F, 0x2A], .blockComment [0x61, 0x2F, 0x2A], .blank 0x20], by decide, rfl⟩
  have hcomment : Gap.IsUnclosed comment := ⟨[0x2F, 0x62, 0x0A, 0x2A], by decide, rfl⟩
  have hplace : source.positionAt (5 + gap.length) = opener := by decide
  have hline : source.line opener.line = "/*a/**/ /*/b" := by decide +kernel
  obtain ⟨_, _, hstring, _⟩ := reports_unclosed_iff hquoted
  obtain ⟨hreports, _, _, _, hopener⟩ := reports_unclosed_iff hopened
  rw [hfirst] at hstring
  rw [hsecond] at hreports hopener
  have hleft : source.between 5 source.stop = gap ++ comment := by decide
  obtain ⟨hreport, hshown, hscan, _⟩ := hopener gap comment hgap hcomment hleft
  rw [hplace] at hreport hshown
  rw [hline] at hreport
  have hclosed : ¬ quoted.ReportsUnclosed :=
    hstring [] _ (gap ++ comment) Gap.isGap_nil hliteral nofun (by decide)
  exact ⟨⟨hquoted, hclosed⟩, ⟨hopened, hreports.mpr ⟨gap, comment, hgap, hcomment, hleft⟩, hreport,
    hshown, hscan⟩, by decide +kernel, by decide +kernel⟩

end Scanner

end LetLang
