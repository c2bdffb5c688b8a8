import LetLang.Proofs.Comparison
import LetLang.Proofs.Locations

/-!
# Reading from a place on

A source can be cut, so that it starts at one of its places. What is read from that place on is
what is read from the cut source: the same tokens, instructions and faults. Only the locations
differ, as lines and columns of the cut source are counted from the place.
-/

namespace LetLang

/-- The source that starts at an offset of this one. -/
def Source.cut (source : Source) (offset : Nat) : Source :=
  ⟨source.file, source.bytes.drop offset⟩

/-- The place that is reached from another one where this one is reached from the start. -/
def Position.shift (base position : Position) : Position :=
  ⟨base.offset + position.offset, base.line + (position.line - 1),
    if position.line = 1 then base.column + (position.column - 1) else position.column⟩

/-- The location in a source of a location in the source cut at a place. Columns are moved on the
first line only. -/
def Location.shift (base : Position) (location : Location) : Location :=
  ⟨location.file, base.line + (location.line - 1),
    if location.line = 1 then base.column + (location.column - 1) else location.column⟩

def Token.shift (base : Position) (token : Token) : Token :=
  { token with location := token.location.map (Location.shift base) }

/-- The diagnostic at the location in the source, whose line it quotes. -/
def Diagnostic.shift (source : Source) (base : Position) (report : Diagnostic) : Diagnostic :=
  ⟨report.cause, report.location.map (Location.shift base),
    report.location.map fun location => source.line (location.shift base).line⟩

def Fault.shift (source : Source) (base : Position) : Fault → Fault
  | .diagnostic report => .diagnostic (report.shift source base)
  | .encoding cause => .encoding cause

/-- Where the text starts with some bytes, the source cut after them has the text that follows. -/
theorem Source.text_cut {source : Source} {before after : List Byte}
    (htext : source.text = before ++ after) : (source.cut before.length).text = after := by
  have hplain : Byte.nul ∉ before := fun hbyte =>
    source.nul_not_mem_text (htext ▸ List.mem_append_left after hbyte)
  obtain ⟨later, hbytes⟩ : ∃ later, source.bytes = before ++ later := by
    have hall := source.text_append
    rw [htext, List.append_assoc] at hall
    exact ⟨_, hall⟩
  have hlater := text_append_of_not_mem source.file hplain later
  rw [← hbytes] at hlater
  have hboth : before ++ (⟨source.file, later⟩ : Source).text = before ++ after :=
    hlater.symm.trans htext
  rw [cut, hbytes, List.drop_left]
  exact List.append_cancel_left hboth

namespace Position

theorem one_le_through {position : Position} (hline : 1 ≤ position.line)
    (hcolumn : 1 ≤ position.column) (bytes : List Byte) :
    1 ≤ (position.through bytes).line ∧ 1 ≤ (position.through bytes).column := by
  induction bytes generalizing position with
  | nil => exact ⟨hline, hcolumn⟩
  | cons byte bytes ih =>
      rw [through_cons, advance]
      split
      next => exact ih (Nat.le_add_left 1 _) le_rfl
      next => exact ih hline (Nat.le_add_left 1 _)

theorem shift_advance (base : Position) {position : Position} (hline : 1 ≤ position.line)
    (hcolumn : 1 ≤ position.column) (byte : Byte) :
    base.shift (position.advance byte) = (base.shift position).advance byte := by
  unfold advance
  split
  next =>
    have hlater : position.line + 1 ≠ 1 := by omega
    simp only [shift, if_neg hlater, mk.injEq, and_true]
    exact ⟨rfl, by omega⟩
  next =>
    by_cases hfirst : position.line = 1
    · simp only [shift, if_pos hfirst, mk.injEq, true_and]
      exact ⟨rfl, by omega⟩
    · simp only [shift, if_neg hfirst, mk.injEq, and_true]
      rfl

theorem through_shift (base : Position) {position : Position} (hline : 1 ≤ position.line)
    (hcolumn : 1 ≤ position.column) (bytes : List Byte) :
    (base.shift position).through bytes = base.shift (position.through bytes) := by
  induction bytes generalizing position with
  | nil => rfl
  | cons byte bytes ih =>
      obtain ⟨hnext, hlater⟩ := one_le_through hline hcolumn [byte]
      rw [through_cons, ← shift_advance base hline hcolumn]
      exact ih hnext hlater

theorem shift_start (base : Position) : base.shift start = base := by
  simp [shift, start]

end Position

theorem Source.locate_shift (source : Source) {offset : Nat} {base position : Position}
    (hline : 1 ≤ position.line) (hcolumn : 1 ≤ position.column) :
    source.locate (base.shift position) =
      ((source.cut offset).locate position).shift base := by
  by_cases hfirst : position.line = 1
  · simp [locate, Location.ofPosition, Location.shift, Position.shift, cut, hfirst]
    omega
  · have hlater : ¬ (position.line : Int) = 1 := by omega
    simp [locate, Location.ofPosition, Location.shift, Position.shift, cut, hfirst, hlater]
    omega

/-! ## Draws from a source and from the cut one -/

/-- Whether one scanner has read as far in a source as another one in the source cut at a place. -/
structure Scanner.Within (source : Source) (offset : Nat) (whole part : Scanner) : Prop where
  uncut : whole.source = source
  cut : part.source = source.cut offset
  encoding : whole.encoding = part.encoding
  rest : whole.rest = part.rest
  line : 1 ≤ part.position.line
  column : 1 ≤ part.position.column
  position : whole.position = (source.positionAt offset).shift part.position

namespace Scanner.Within

variable {source : Source} {offset : Nat} {whole part : Scanner}

theorem move (hwithin : Within source offset whole part) (span rest : List Byte) :
    Within source offset (whole.move span rest) (part.move span rest) where
  uncut := hwithin.uncut
  cut := hwithin.cut
  encoding := hwithin.encoding
  rest := rfl
  line := (Position.one_le_through hwithin.line hwithin.column span).1
  column := (Position.one_le_through hwithin.line hwithin.column span).2
  position := by
    rw [Scanner.move, hwithin.position, Position.through_shift _ hwithin.line hwithin.column]
    rfl

theorem locate (hwithin : Within source offset whole part) (span : List Byte) :
    whole.source.locate (whole.position.through span) =
      (part.source.locate (part.position.through span)).shift (source.positionAt offset) := by
  obtain ⟨hline, hcolumn⟩ := Position.one_le_through hwithin.line hwithin.column span
  rw [hwithin.uncut, hwithin.cut, hwithin.position,
    Position.through_shift _ hwithin.line hwithin.column, source.locate_shift hline hcolumn]

theorem unclosedComment (hwithin : Within source offset whole part) (gap comment : List Byte) :
    (whole.move gap comment).unclosedComment =
      (part.move gap comment).unclosedComment.shift source (source.positionAt offset) := by
  have hplace := hwithin.locate gap
  rw [hwithin.uncut] at hplace
  simp only [Scanner.unclosedComment, Diagnostic.shift, Scanner.move, hwithin.uncut, hplace]
  rfl

theorem unexpected (hwithin : Within source offset whole part) (token : Token)
    (needed : Statement.Expectation) :
    Statement.unexpected whole.source (token.shift (source.positionAt offset)) needed =
      (Statement.unexpected part.source token needed).shift source (source.positionAt offset) := by
  cases hlocation : token.location <;>
    simp [Statement.unexpected, Token.shift, Diagnostic.shift, hlocation, hwithin.uncut]

end Scanner.Within

/-- A scanner that comes to some bytes stands where one of the source cut there starts. -/
theorem Scanner.Reachable.exists_within {source : Source} {encoding : Decoder} {scanner : Scanner}
    (hreached : Reachable source encoding scanner) {gap rest : List Byte}
    (hrest : scanner.rest = gap ++ rest) :
    ∃ offset, scanner.source.locate (scanner.position.through gap) =
        source.locate (source.positionAt offset) ∧ rest <+: source.bytes.drop offset ∧
      Scanner.Within source offset (scanner.move gap rest)
        (Scanner.ofSource (source.cut offset) encoding) := by
  obtain ⟨hsource, before, htext, hposition⟩ := hreached.exists_before
  rw [hrest, ← List.append_assoc] at htext
  have hbytes := source.text_append
  rw [htext, List.append_assoc] at hbytes
  have hplace : scanner.position.through gap = source.positionAt (before ++ gap).length := by
    rw [Source.positionAt_length hbytes, hposition, Position.through_append]
  refine ⟨(before ++ gap).length, by rw [hsource, hplace], ?_, ?_⟩
  · rw [hbytes, List.drop_left]
    exact List.prefix_append ..
  · exact
      { uncut := hsource
        cut := rfl
        encoding := hreached.encoding_eq
        rest := (Source.text_cut htext).symm
        line := le_rfl
        column := le_rfl
        position := hplace.trans (Position.shift_start _).symm }

/-- A source and the source cut at a place are compared by moving locations. -/
def Comparison.shifted (source : Source) (offset : Nat) : Comparison where
  related := Scanner.Within source offset
  alike token other := token = other.shift (source.positionAt offset)
  same fault other := fault = other.shift source (source.positionAt offset)
  parted _ _ _ := False

theorem Comparison.lawful_shifted (source : Source) (offset : Nat) :
    (shifted source offset).Lawful where
  draw := by
    intro whole part hwithin
    rcases Scanner.next_cases_of_rest_eq hwithin.rest with
      ⟨gap, spelling, rest, hgap, hvalid, hends, htext, hother⟩ | ⟨hwhole, hpart⟩ |
      ⟨gap, comment, hwhole, hpart⟩
    · have hwhole := Scanner.next_of_spelling hgap hvalid hends htext
      have hpart := Scanner.next_of_spelling hgap hvalid hends hother
      rw [hwithin.encoding] at hwhole
      cases htoken : spelling.textBy part.encoding with
      | ok text =>
          rw [htoken] at hwhole hpart
          refine .token _ _ _ _ hwhole hpart (hwithin.move _ _) ?_
          rw [hwithin.locate]
          rfl
      | error cause =>
          rw [htoken] at hwhole hpart
          exact .fault _ _ _ _ hwhole hpart (hwithin.move _ _) rfl
    · refine .token _ _ _ _ hwhole hpart (hwithin.move _ _) ?_
      rw [hwithin.locate]
      rfl
    · refine .fault _ _ _ _ hwhole hpart (hwithin.move _ _) ?_
      rw [hwithin.unclosedComment]
      rfl
  kind := by
    rintro token other rfl
    rfl
  text := by
    rintro token other rfl _
    rfl
  string := False.elim

/-- A reading that starts with the token at a place of a source is the reading of the source cut
there. -/
theorem Statement.read_cut {source : Source} {offset : Nat} {whole part : Scanner} {token : Token}
    (hwithin : Scanner.Within source offset whole part) :
    (read whole (token.shift (source.positionAt offset))).instructions =
        (read part token).instructions ∧
      (read whole (token.shift (source.positionAt offset))).fault =
        (read part token).fault.map (Fault.shift source (source.positionAt offset)) := by
  have halike : (Comparison.shifted source offset).alike
      (token.shift (source.positionAt offset)) token := rfl
  have hends : (Comparison.shifted source offset).Ends whole (read whole _) (read part token) :=
    (Comparison.lawful_shifted source offset).readFrom hwithin halike
  cases hends with
  | completed hagree hwhole hpart =>
      refine ⟨hagree.instructions, ?_⟩
      rw [hwhole, hpart]
      rfl
  | refused hagree needed hwhole hpart =>
      refine ⟨hagree.instructions, ?_⟩
      rw [hwhole, hpart, hagree.current, hagree.scanner.unexpected]
      rfl
  | failed hagree fault other hsame hwhole hpart =>
      refine ⟨hagree.instructions, ?_⟩
      rw [hwhole, hpart, hsame]
      rfl
  | parted _ _ _ _ _ _ _ hparted => exact hparted.elim

end LetLang
