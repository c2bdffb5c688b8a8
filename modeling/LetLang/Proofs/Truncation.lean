import LetLang.Bytewise
import LetLang.Proofs.Lookahead
import Mathlib.Data.List.DropRight
import Mathlib.Data.List.Forall2

/-!
# A NUL byte is the end

No loop of a cursor passes a NUL byte, wherever that stands. So a source with one is read as the
source that ends before it: the draws are the same and so are the results. Only the lines that
messages quote are taken from all bytes, and a line that the NUL byte is on goes on where that of
the shorter source ends.
-/

namespace LetLang

/-! ## Lines of a longer source -/

theorem isPrefix_trimLine (front more : List Byte) :
    Source.trimLine front <+: Source.trimLine (front ++ more) := by
  have hself : Source.trimLine front <+: front :=
    List.rdropWhile_prefix (· == Byte.carriageReturn) front
  have htrim : Source.trimLine (front ++ more) =
      ((more.reverse ++ front.reverse).dropWhile (· == Byte.carriageReturn)).reverse := by
    rw [Source.trimLine, List.reverse_append]
  rw [htrim, List.dropWhile_append]
  split
  · exact List.prefix_rfl
  · rw [List.reverse_append, List.reverse_reverse]
    exact hself.trans (List.prefix_append _ _)

/-- Bytes after others leave the lines as they are, but for the last one, which may go on. -/
theorem exists_splitOn_append {front : List Byte} (later : List Byte) {index : Nat}
    {line : List Byte} (hline : (front.splitOn Byte.lineFeed)[index]? = some line) :
    ∃ more, ((front ++ later).splitOn Byte.lineFeed)[index]? = some (line ++ more) := by
  induction front generalizing index line with
  | nil =>
      cases index with
      | zero =>
          obtain rfl : [] = line := Option.some.inj hline
          have hhead := head?_splitOn_lineFeed later
          rw [List.head?_eq_getElem?] at hhead
          exact ⟨_, hhead⟩
      | succ index => cases hline
  | cons byte front ih =>
      rw [List.splitOn_cons_eq_if_modifyHead] at hline
      rw [List.cons_append, List.splitOn_cons_eq_if_modifyHead]
      split
      next hfeed =>
        rw [if_pos hfeed] at hline
        cases index with
        | zero =>
            obtain rfl : [] = line := Option.some.inj hline
            exact ⟨[], rfl⟩
        | succ index => exact ih hline
      next hfeed =>
        rw [if_neg hfeed] at hline
        cases index with
        | zero =>
            rw [List.getElem?_modifyHead_zero, Option.map_eq_some_iff] at hline
            obtain ⟨rest, hrest, rfl⟩ := hline
            obtain ⟨more, hmore⟩ := ih hrest
            exact ⟨more, by rw [List.getElem?_modifyHead_zero, hmore]; rfl⟩
        | succ index =>
            rw [List.getElem?_modifyHead_succ] at hline ⊢
            exact ih hline

/-- A line of a source is the start of the same line of a longer one. -/
theorem Source.isPrefix_line (file : String) (front later : List Byte) (number : Int) :
    ((⟨file, front⟩ : Source).line number).toList <+:
      ((⟨file, front ++ later⟩ : Source).line number).toList := by
  unfold line
  by_cases hnumber : number < 1
  · rw [if_pos hnumber]
    exact List.nil_prefix
  · rw [if_neg hnumber, if_neg hnumber, lines, lines]
    cases hline : (front.splitOn Byte.lineFeed)[number.toNat - 1]? with
    | none => exact List.nil_prefix
    | some line =>
        obtain ⟨more, hmore⟩ := exists_splitOn_append later hline
        simp only [hmore, latinText, String.toList_ofList]
        exact (isPrefix_trimLine line more).map Byte.toChar

/-! ## What may differ -/

/-- Whether a diagnostic is another one but for the quoted line, which starts with that of the
other one. -/
structure Diagnostic.Extends (report other : Diagnostic) : Prop where
  cause : report.cause = other.cause
  location : report.location = other.location
  sourceLine : Option.Rel (fun line front : String => front.toList <+: line.toList)
    report.sourceLine other.sourceLine

/-- Whether a fault is another one but for the line that it quotes. -/
inductive Fault.Extends : Fault → Fault → Prop where
  | diagnostic {report other : Diagnostic} (hextends : report.Extends other) :
      Extends (.diagnostic report) (.diagnostic other)
  | encoding (cause : Encoding.Fault) : Extends (.encoding cause) (.encoding cause)

/-- Whether outcomes are the same but for the line that a fault quotes. -/
inductive SameButLine {α : Type} : Except Fault α → Except Fault α → Prop where
  | value (value : α) : SameButLine (.ok value) (.ok value)
  | fault {fault other : Fault} (hextends : fault.Extends other) :
      SameButLine (.error fault) (.error other)

/-- Whether each line of one source starts with that of another one. -/
def Source.LinesExtend (source other : Source) : Prop :=
  ∀ number, (other.line number).toList <+: (source.line number).toList

theorem Source.LinesExtend.quoted {source other : Source} (hlines : source.LinesExtend other)
    (location : Option Location) :
    Option.Rel (fun line front : String => front.toList <+: line.toList)
      (location.map fun place => source.line place.line)
      (location.map fun place => other.line place.line) := by
  cases location with
  | none => exact .none
  | some place => exact .some (hlines place.line)

theorem Statement.extends_unexpected {source other : Source} (hlines : source.LinesExtend other)
    (token : Token) (needed : Expectation) :
    (unexpected source token needed).Extends (unexpected other token needed) where
  cause := rfl
  location := rfl
  sourceLine := hlines.quoted token.location

/-! ## Two sources with one text -/

/-- Scanners at one place of two texts that are the same, where the lines of the first source go on
with those of the second one. -/
def Comparison.extended : Comparison where
  related left right := left.Alongside right ∧ left.rest = right.rest ∧
    left.source.LinesExtend right.source
  alike token other := token = other
  same := Fault.Extends
  parted _ _ _ := False

theorem Scanner.Alongside.extends_unclosedComment {left right : Scanner}
    (halong : left.Alongside right) (hlines : left.source.LinesExtend right.source)
    (gap comment : List Byte) :
    (left.move gap comment).unclosedComment.Extends (right.move gap comment).unclosedComment where
  cause := rfl
  location := congrArg some (halong.locate gap).symm
  sourceLine := by
    have hplace := halong.locate gap
    simp only [Scanner.unclosedComment, Scanner.move, hplace]
    exact .some (hlines _)

theorem Comparison.lawful_extended : extended.Lawful where
  draw := by
    rintro left right ⟨halong, hrest, hlines⟩
    rcases Scanner.next_cases_of_rest_eq hrest with
      ⟨gap, spelling, rest, hgap, hvalid, hends, htext, hother⟩ | ⟨hleft, hright⟩ |
      ⟨gap, comment, hleft, hright⟩
    · have hleft := Scanner.next_of_spelling hgap hvalid hends htext
      have hright := Scanner.next_of_spelling hgap hvalid hends hother
      rw [halong.encoding, halong.locate] at hright
      cases hspelled : spelling.textBy left.encoding with
      | ok text =>
          rw [hspelled] at hleft hright
          exact .token _ _ _ _ hleft hright ⟨halong.move _ _ _, rfl, hlines⟩ rfl
      | error cause =>
          rw [hspelled] at hleft hright
          exact .fault _ _ _ _ hleft hright ⟨halong.move _ _ _, rfl, hlines⟩ (.encoding cause)
    · rw [halong.locate] at hright
      exact .token _ _ _ _ hleft hright ⟨halong.move _ _ _, rfl, hlines⟩ rfl
    · exact .fault _ _ _ _ hleft hright ⟨halong.move _ _ _, rfl, hlines⟩
        (.diagnostic (halong.extends_unclosedComment hlines gap comment))
  kind := by
    rintro token other rfl
    rfl
  text := by
    rintro token other rfl _
    rfl
  string := False.elim

/-- Compilations from such scanners end in the same way. -/
theorem Comparison.Compiled.sameButLine {options : Options} {source other : Source}
    (hcompiled : extended.Compiled options options source other) (hfile : other.file = source.file)
    (hlines : source.LinesExtend other) :
    SameButLine (compile options source).outcome (compile options other).outcome := by
  cases hcompiled with
  | accepted lines hleft hright htokens =>
      have hsame : (compile options source).tokens = (compile options other).tokens :=
        List.forall₂_eq_eq_eq ▸ htokens
      rw [hleft, hright, hsame, hfile]
      exact .value _
  | refused left right needed _ _ halike hleft hright =>
      obtain rfl : left = right := halike
      rw [hleft, hright]
      exact .fault (.diagnostic (Statement.extends_unexpected hlines left needed))
  | failed fault cause hsame hleft hright =>
      rw [hleft, hright]
      exact .fault hsame
  | parted _ _ _ _ _ _ _ hparted => exact hparted.elim

theorem Comparison.sameButLine_next {left right : Scanner}
    (hrelated : extended.related left right) : SameButLine left.next.2 right.next.2 := by
  cases lawful_extended.draw hrelated with
  | token _ _ token other hleft hright _ halike =>
      obtain rfl : token = other := halike
      rw [hleft, hright]
      exact .value token
  | fault _ _ fault other hleft hright _ hsame =>
      rw [hleft, hright]
      exact .fault hsame
  | parted _ _ _ _ _ _ hparted => exact hparted.elim

/-- What is left of a source up to a NUL byte is the source that ends there. -/
theorem Comparison.extended_of_nul (file : String) {front : List Byte} (hfront : Byte.nul ∉ front)
    (later : List Byte) (encoding : Decoder) :
    extended.related (Scanner.ofSource ⟨file, front ++ Byte.nul :: later⟩ encoding)
      (Scanner.ofSource ⟨file, front⟩ encoding) := by
  refine ⟨⟨rfl, rfl, rfl⟩, ?_, Source.isPrefix_line file front (Byte.nul :: later)⟩
  have hended : (⟨file, front⟩ : Source).text = front := Source.text_of_not_mem hfront
  have hnothing : (⟨file, Byte.nul :: later⟩ : Source).text = [] := rfl
  change (⟨file, front ++ Byte.nul :: later⟩ : Source).text = (⟨file, front⟩ : Source).text
  rw [hended, Source.text_append_of_not_mem file hfront, hnothing, List.append_nil]

/-- **A NUL byte ends a source wherever it stands.** A cursor moves over all the bytes of a source,
and yet with any decoder its draws from a source with a NUL byte and from the source that ends
before the first one are the same step by step, failed ones among them. So are the compilations,
byte by byte and by runs of bytes: they give the same result, or fail with the same cause at the
same place. Only the quoted line may differ, and it starts with that of the shorter source. -/
theorem compile_stops_at_nul (file : String) {front : List Byte} (hfront : Byte.nul ∉ front)
    (later : List Byte) (encoding : Decoder) :
    let source : Source := ⟨file, front ++ Byte.nul :: later⟩
    let ended : Source := ⟨file, front⟩
    (∀ count,
      let cursor := (Cursor.ofSource source encoding).afterDraws count
      let other := (Cursor.ofSource ended encoding).afterDraws count
      cursor.position = other.position ∧ SameButLine cursor.next.2 other.next.2) ∧
    ∀ trace, let options : Options := ⟨encoding, trace⟩
      SameButLine (Cursor.compile options source).outcome (Cursor.compile options ended).outcome ∧
      Cursor.compile options source = compile options source ∧
      Cursor.compile options ended = compile options ended := by
  intro source ended
  have hstart : Comparison.extended.related (Scanner.ofSource source encoding)
      (Scanner.ofSource ended encoding) := Comparison.extended_of_nul file hfront later encoding
  refine ⟨fun count => ?_, fun trace => ?_⟩
  · intro cursor other
    have hrelated : Comparison.extended.related cursor.view other.view := by
      rw [Cursor.view_afterDraws, Cursor.view_afterDraws]
      exact Comparison.lawful_extended.related_afterDraws hstart fun _ _ _ _ hparted => hparted
    have hnext := Comparison.sameButLine_next hrelated
    rw [← Cursor.view_next, ← Cursor.view_next] at hnext
    exact ⟨hrelated.1.position.symm, hnext⟩
  · intro options
    rw [Cursor.compile_eq, Cursor.compile_eq]
    have hcompiled : Comparison.extended.Compiled options options source ended :=
      Comparison.lawful_extended.compile hstart
    exact ⟨hcompiled.sameButLine rfl hstart.2.2, rfl, rfl⟩

/-- A NUL byte in a comment, whose closer comes after it. The line of the shorter source is quoted
without the carriage return at its end. -/
theorem compile_stops_at_nul_comment :
    let front : List Byte := [0x6C, 0x65, 0x74, 0x20, 0x61, 0x2F, 0x2A, 0x0D]
    let later : List Byte := [0x2A, 0x2F, 0x3D, 0x31, 0x3B]
    let source : Source := ⟨"nul", front ++ Byte.nul :: later⟩
    let ended : Source := ⟨"nul", front⟩
    let unclosed (quoted : String) : Fault := .diagnostic
      ⟨.unclosedComment, some ⟨"nul", 1, 6⟩, some quoted⟩
    Byte.nul ∉ front ∧
      (Cursor.compile .standard source).outcome.map Result.instructions =
        .error (unclosed "let a/*\r\x00*/=1;") ∧
      (Cursor.compile .standard ended).outcome.map Result.instructions =
        .error (unclosed "let a/*") ∧
      SameButLine (Cursor.compile .standard source).outcome
        (Cursor.compile .standard ended).outcome ∧
      ∀ count,
        let cursor := (Cursor.ofSource source "utf-8").afterDraws count
        let other := (Cursor.ofSource ended "utf-8").afterDraws count
        cursor.position = other.position ∧ SameButLine cursor.next.2 other.next.2 := by
  intro front later source ended unclosed
  have hfront : Byte.nul ∉ front := by decide
  obtain ⟨hdraws, hcompiled⟩ := compile_stops_at_nul "nul" hfront later "utf-8"
  exact ⟨hfront, by decide +kernel, by decide +kernel, (hcompiled false).1, hdraws⟩

end LetLang
