import LetLang.Proofs.Comparison
import LetLang.Proofs.Locations
import Mathlib.Data.List.Forall2

/-!
# Sources under other names

Nothing is read off the name of a source: it only goes into locations. So two sources with the same
bytes are compiled alike, and what is reported of them differs by the name that the report starts
with.
-/

namespace LetLang

/-! ## Other names -/

/-- A source with the same bytes under another name. -/
def Source.rename (source : Source) (file : String) : Source := { source with file := file }

def Location.rename (location : Location) (file : String) : Location :=
  { location with file := file }

def Token.rename (token : Token) (file : String) : Token :=
  { token with location := token.location.map (·.rename file) }

def Diagnostic.rename (report : Diagnostic) (file : String) : Diagnostic :=
  { report with location := report.location.map (·.rename file) }

/-- The cause of an encoding names no file. -/
def Fault.rename (file : String) : Fault → Fault
  | .diagnostic report => .diagnostic (report.rename file)
  | .encoding cause => .encoding cause

def Result.rename (result : Result) (file : String) : Result :=
  { result with file := file, tokens := result.tokens.map (·.rename file) }

def Scanner.rename (scanner : Scanner) (file : String) : Scanner :=
  { scanner with source := scanner.source.rename file }

/-! ## Compilations -/

theorem Scanner.token_rename (scanner : Scanner) (file : String) :
    (scanner.rename file).token =
      (scanner.token.1.rename file,
        (scanner.token.2.map (·.rename file)).mapError (Fault.rename file)) := by
  have hrest : (scanner.rename file).rest = scanner.rest := rfl
  have hencoding : (scanner.rename file).encoding = scanner.encoding := rfl
  rw [token, token, hrest, hencoding]
  dsimp only
  cases (Lexeme.read scanner.rest).1.text scanner.encoding with
  | error cause => rfl
  | ok text => rfl

/-- What is drawn under another name is the same under that name. -/
theorem Scanner.next_rename (scanner : Scanner) (file : String) :
    (scanner.rename file).next =
      (scanner.next.1.rename file,
        (scanner.next.2.map (·.rename file)).mapError (Fault.rename file)) := by
  cases hread : Gap.read scanner.rest with
  | clear span rest =>
      have hrenamed : Gap.read (scanner.rename file).rest = .clear span rest := hread
      rw [next_of_read hread, next_of_read hrenamed]
      exact token_rename (scanner.move span rest) file
  | unclosed span comment =>
      have hrenamed : Gap.read (scanner.rename file).rest = .unclosed span comment := hread
      rw [next_of_read_unclosed hread, next_of_read_unclosed hrenamed]
      rfl

/-- A scanner and the same one under another name. -/
def Comparison.renamed (file : String) : Comparison where
  related left right := right = left.rename file
  alike token other := other = token.rename file
  same fault other := other = fault.rename file
  parted _ _ _ := False

theorem Comparison.lawful_renamed (file : String) : (renamed file).Lawful where
  draw := by
    rintro left right rfl
    have hright := left.next_rename file
    rcases hleft : left.next with ⟨after, fault | token⟩
    · rw [hleft] at hright
      exact .fault _ _ _ _ hleft hright rfl rfl
    · rw [hleft] at hright
      exact .token _ _ _ _ hleft hright rfl rfl
  kind := by
    rintro token other rfl
    rfl
  text := by
    rintro token other rfl _
    rfl
  string := False.elim

theorem Statement.unexpected_rename (source : Source) (token : Token) (needed : Expectation)
    (file : String) : unexpected (source.rename file) (token.rename file) needed =
      (unexpected source token needed).rename file := by
  cases hlocation : token.location with
  | none => simp [unexpected, Token.rename, Diagnostic.rename, hlocation]
  | some location =>
      simp only [unexpected, Token.rename, Diagnostic.rename, hlocation, Option.map_some]
      rfl

/-- A source is compiled under another name to the same, under that name. -/
theorem outcome_compile_rename (options : Options) (source : Source) (file : String) :
    (compile options (source.rename file)).outcome =
      ((compile options source).outcome.map (·.rename file)).mapError (Fault.rename file) := by
  have hcompiled : (Comparison.renamed file).Compiled options options source
      (source.rename file) := (Comparison.lawful_renamed file).compile rfl
  cases hcompiled with
  | accepted lines hleft hright htokens =>
      -- tokens that are alike one by one are the renamed tokens
      have hsame : List.Forall₂ (· = ·) ((compile options source).tokens.map (·.rename file))
          (compile options (source.rename file)).tokens :=
        List.forall₂_map_left_iff.mpr (htokens.imp fun _ _ halike => Eq.symm halike)
      rw [List.forall₂_eq_eq_eq] at hsame
      rw [hleft, hright, ← hsame]
      cases options.trace <;> rfl
  | refused left right needed _ _ halike hleft hright =>
      obtain rfl : right = left.rename file := halike
      rw [hleft, hright, Statement.unexpected_rename]
      rfl
  | failed fault cause hsame hleft hright =>
      obtain rfl : cause = fault.rename file := hsame
      rw [hleft, hright]
      rfl
  | parted _ _ _ _ _ _ _ hparted => exact hparted.elim

/-! ## Reports -/

/-- What is reported of a source is at a position of it. -/
theorem exists_location_of_outcome {options : Options} {source : Source} {report : Diagnostic}
    (hreport : (compile options source).outcome = .error (.diagnostic report)) :
    ∃ position, report.location = some (source.locate position) := by
  cases compile_verdict options source with
  | accepted _ _ _ _ _ _ _ _ _ houtcome =>
      rw [hreport] at houtcome
      cases houtcome
  | refused before token after reached needed _ _ hdraws _ _ _ _ houtcome =>
      rw [hreport, Except.error.injEq, Fault.diagnostic.injEq] at houtcome
      obtain ⟨middle, hbefore, hdraw⟩ := Scanner.Draws.concat_iff.mp hdraws
      obtain ⟨_, _, _, _, _, _, _, _, hlocation, _⟩ :=
        (Scanner.Reachable.start.of_draws hbefore).exists_place hdraw
      rw [houtcome]
      exact ⟨_, hlocation⟩
  | failed tokens middle after fault reached _ hdraws _ hdraw _ houtcome =>
      rw [hreport, Except.error.injEq] at houtcome
      subst houtcome
      obtain ⟨_, _, _, _, _, _, _, rfl, _⟩ :=
        (Scanner.Reachable.start.of_draws hdraws).exists_opener hdraw
      exact ⟨_, rfl⟩

/-- A report that names a place starts with the name of the file. -/
theorem Diagnostic.exists_render_rename {report : Diagnostic} (hlocation : report.location ≠ none) :
    ∃ rest, ∀ file, (report.rename file).render = file ++ rest := by
  obtain ⟨location, hlocation⟩ := Option.ne_none_iff_exists'.mp hlocation
  refine ⟨":" ++ "\n".intercalate ((toString location.line ++ ":" ++ toString location.column ++
    ": error: " ++ report.cause.text) :: report.quotation ++ report.hintLine.toList), ?_⟩
  intro file
  have hheading : (report.rename file).heading = file ++ (":" ++ (toString location.line ++ ":" ++
      toString location.column ++ ": error: " ++ report.cause.text)) := by
    simp [heading, rename, hlocation, Location.rename, Location.render, String.append_assoc]
  have hquotation : (report.rename file).quotation = report.quotation := by
    rw [quotation, quotation, rename, hlocation]
    cases report.sourceLine <;> rfl
  have hhint : (report.rename file).hintLine = report.hintLine := rfl
  rw [render, lines, hheading, hquotation, hhint, List.cons_append, List.cons_append,
    String.intercalate_cons_append, String.intercalate_cons_append]

/-- What is reported of a source under different names differs by the name it starts with. -/
theorem exists_render_of_outcome {options : Options} {source : Source} {report : Diagnostic}
    (hreport : (compile options source).outcome = .error (.diagnostic report)) :
    ∃ rest, report.render = source.file ++ rest ∧
      ∀ file, (report.rename file).render = file ++ rest := by
  obtain ⟨position, hlocation⟩ := exists_location_of_outcome hreport
  have hplace : report.location ≠ none := by simp [hlocation]
  obtain ⟨rest, hrender⟩ := Diagnostic.exists_render_rename hplace
  have hown : report.rename source.file = report := by
    rw [Diagnostic.rename, hlocation]
    exact congrArg (Diagnostic.mk report.cause · report.sourceLine) hlocation.symm
  refine ⟨rest, ?_, hrender⟩
  rw [← hrender source.file, hown]

end LetLang
