import LetLang.Scanner
import LetLang.Proofs.Spelling

/-!
# What a draw does

A draw takes a gap and one spelled token off the front of what is left, or meets the end, or a
block comment that never closes. These are all the cases there are, and each is known from the
bytes alone. Draws in a row are a relation of their own.
-/

namespace LetLang

/-- Equal pairs with a result have the same result. -/
theorem mk_ok_inj {α ε β : Type} {first second : α} {left right : β}
    (heq : (first, (.ok left : Except ε β)) = (second, .ok right)) :
    first = second ∧ left = right := by
  obtain ⟨hfirst, hresult⟩ := Prod.mk.inj heq
  exact ⟨hfirst, Except.ok.inj hresult⟩

/-- What tokens are compared by. -/
def Token.key (token : Token) : Kind × String := (token.kind, token.text)

namespace Scanner

@[simp]
theorem move_move (scanner : Scanner) (first second middle rest : List Byte) :
    (scanner.move first middle).move second rest = scanner.move (first ++ second) rest := by
  simp [move]

@[simp]
theorem move_nil (scanner : Scanner) : scanner.move [] scanner.rest = scanner := rfl

/-! ## The cases of a draw -/

/-- Before a token the draw takes the gap and the token. A literal that cannot be decoded is
left at its closing quote. -/
theorem next_of_spelling {scanner : Scanner} {gap rest : List Byte} {spelling : Spelling}
    (hgap : Gap.IsGap gap) (hvalid : spelling.Valid) (hends : spelling.EndsBefore rest)
    (hrest : scanner.rest = gap ++ (spelling.bytes ++ rest)) :
    scanner.next =
      match spelling.textBy scanner.encoding with
      | .ok text =>
          (scanner.move (gap ++ spelling.bytes) rest,
            .ok ⟨spelling.kind, text,
              some (scanner.source.locate (scanner.position.through gap))⟩)
      | .error fault =>
          (scanner.move (gap ++ spelling.lexeme.body) (spelling.lexeme.closing ++ rest),
            .error (.encoding fault)) := by
  have hread : Gap.read scanner.rest = .clear gap (spelling.bytes ++ rest) := by
    rw [hrest, Gap.read_append hgap,
      Gap.read_of_clear (Spelling.front_append hvalid hends), Gap.prepend, List.append_nil]
  have hlexeme : Lexeme.read (scanner.move gap (spelling.bytes ++ rest)).rest =
      (spelling.lexeme, rest) := Spelling.read_append hvalid hends
  rw [next_of_read hread, token, hlexeme]
  simp only [Spelling.text_lexeme, Spelling.kind_lexeme hvalid, Spelling.span_lexeme, move_move]
  rfl

theorem next_of_isFinalGap {scanner : Scanner} (hgap : Gap.IsFinalGap scanner.rest) :
    scanner.next = (scanner.move scanner.rest [],
      .ok ⟨.finish, Kind.finish.name,
        some (scanner.source.locate (scanner.position.through scanner.rest))⟩) := by
  rw [next_of_read (Gap.read_of_isFinalGap hgap), token]
  simp [move, Lexeme.read, Lexeme.text, Lexeme.kind, Lexeme.span, Lexeme.body, Lexeme.closing]

/-- A block comment that never closes makes the draw fail at the end of the text. -/
theorem next_of_unclosed (scanner : Scanner) {gap comment : List Byte} (hgap : Gap.IsGap gap)
    (hcomment : Gap.IsUnclosed comment) (hrest : scanner.rest = gap ++ comment) :
    scanner.next = (scanner.move scanner.rest [],
      .error (.diagnostic (scanner.move gap comment).unclosedComment)) := by
  have hread := Gap.read_eq_unclosed_iff.mpr ⟨hgap, hcomment, hrest⟩
  rw [next_of_read_unclosed hread]
  simp only [move_move, ← hrest]

/-- There are no other cases: what is left starts with a gap and a token that ends, is made of
a final gap, or is a gap and a block comment that never closes. -/
theorem rest_cases (text : List Byte) :
    (∃ (gap : List Byte) (spelling : Spelling) (rest : List Byte),
        Gap.IsGap gap ∧ spelling.Valid ∧ spelling.EndsBefore rest ∧
          text = gap ++ (spelling.bytes ++ rest)) ∨
      Gap.IsFinalGap text ∨ Gap.EndsUnclosed text := by
  obtain ⟨gap, rest, hgap, rfl, hrest⟩ := Gap.read_cases text
  rcases hrest with ⟨hclear, _⟩ | ⟨hunclosed, _⟩ | ⟨hopen, _⟩
  · by_cases hnil : rest = []
    · -- the gap that was read is all of the text
      subst hnil
      rw [List.append_nil]
      exact Or.inr (Or.inl (Or.inl hgap))
    · obtain ⟨spelling, after, hvalid, hends, rfl⟩ :=
        Spelling.exists_of_front_eq_clear hnil hclear
      exact Or.inl ⟨gap, spelling, after, hgap, hvalid, hends, rfl⟩
  · exact Or.inr (Or.inr ⟨gap, rest, hgap, hunclosed, rfl⟩)
  · exact Or.inr (Or.inl (Or.inr ⟨gap, rest, hgap, hopen, rfl⟩))

/-- All that a draw which hands out a token can have done. -/
theorem next_ok_cases {scanner after : Scanner} {token : Token}
    (hdraw : scanner.next = (after, .ok token)) :
    (∃ (gap : List Byte) (spelling : Spelling) (rest : List Byte),
        Gap.IsGap gap ∧ spelling.Valid ∧ spelling.EndsBefore rest ∧
          scanner.rest = gap ++ (spelling.bytes ++ rest) ∧
          spelling.textBy scanner.encoding = .ok token.text ∧ token.kind = spelling.kind ∧
          token.location = some (scanner.source.locate (scanner.position.through gap)) ∧
          after = scanner.move (gap ++ spelling.bytes) rest) ∨
      (Gap.IsFinalGap scanner.rest ∧ token.kind = .finish ∧
        after = scanner.move scanner.rest []) := by
  rcases rest_cases scanner.rest with ⟨gap, spelling, rest, hgap, hvalid, hends, hrest⟩ |
    hfinal | ⟨gap, comment, hgap, hcomment, hrest⟩
  · left
    refine ⟨gap, spelling, rest, hgap, hvalid, hends, hrest, ?_⟩
    rw [next_of_spelling hgap hvalid hends hrest] at hdraw
    cases htext : spelling.textBy scanner.encoding with
    | ok text =>
        rw [htext] at hdraw
        obtain ⟨hafter, rfl⟩ := mk_ok_inj hdraw
        exact ⟨rfl, rfl, rfl, hafter.symm⟩
    | error fault =>
        rw [htext] at hdraw
        cases (Prod.mk.inj hdraw).2
  · right
    rw [next_of_isFinalGap hfinal] at hdraw
    obtain ⟨hafter, rfl⟩ := mk_ok_inj hdraw
    exact ⟨hfinal, rfl, hafter.symm⟩
  · rw [scanner.next_of_unclosed hgap hcomment hrest] at hdraw
    cases (Prod.mk.inj hdraw).2

/-- All that a draw which fails can have done. -/
theorem next_error_cases {scanner after : Scanner} {fault : Fault}
    (hdraw : scanner.next = (after, .error fault)) :
    (∃ gap comment : List Byte, Gap.IsGap gap ∧ Gap.IsUnclosed comment ∧
        scanner.rest = gap ++ comment ∧
        fault = .diagnostic (scanner.move gap comment).unclosedComment ∧
        after = scanner.move scanner.rest []) ∨
      ∃ (gap : List Byte) (spelling : Spelling) (rest : List Byte) (cause : Encoding.Fault),
        Gap.IsGap gap ∧ spelling.Valid ∧ spelling.EndsBefore rest ∧
          scanner.rest = gap ++ (spelling.bytes ++ rest) ∧
          spelling.textBy scanner.encoding = .error cause ∧ fault = .encoding cause ∧
          after = scanner.move (gap ++ spelling.lexeme.body) (spelling.lexeme.closing ++ rest) := by
  rcases rest_cases scanner.rest with ⟨gap, spelling, rest, hgap, hvalid, hends, hrest⟩ |
    hfinal | ⟨gap, comment, hgap, hcomment, hrest⟩
  · right
    rw [next_of_spelling hgap hvalid hends hrest] at hdraw
    cases htext : spelling.textBy scanner.encoding with
    | ok text =>
        rw [htext] at hdraw
        cases (Prod.mk.inj hdraw).2
    | error cause =>
        rw [htext] at hdraw
        obtain ⟨hafter, hfault⟩ := Prod.mk.inj hdraw
        exact ⟨gap, spelling, rest, cause, hgap, hvalid, hends, hrest, htext,
          (Except.error.inj hfault).symm, hafter.symm⟩
  · rw [next_of_isFinalGap hfinal] at hdraw
    cases (Prod.mk.inj hdraw).2
  · left
    rw [scanner.next_of_unclosed hgap hcomment hrest] at hdraw
    obtain ⟨hafter, hfault⟩ := Prod.mk.inj hdraw
    exact ⟨gap, comment, hgap, hcomment, hrest, (Except.error.inj hfault).symm, hafter.symm⟩

/-- Under a usable encoding a draw fails only on a block comment that never closes. -/
theorem exists_next_iff (scanner : Scanner) {codec : Encoding}
    (hcodec : Encoding.find scanner.encoding.name = .ok codec) :
    (∃ after token, scanner.next = (after, .ok token)) ↔ ¬ Gap.EndsUnclosed scanner.rest := by
  constructor
  · rintro ⟨after, token, hdraw⟩ ⟨gap, comment, hgap, hcomment, hrest⟩
    rw [scanner.next_of_unclosed hgap hcomment hrest] at hdraw
    cases (Prod.mk.inj hdraw).2
  · intro hclosed
    rcases rest_cases scanner.rest with ⟨gap, spelling, rest, hgap, hvalid, hends, hrest⟩ |
      hfinal | hunclosed
    · have hdraw := next_of_spelling hgap hvalid hends hrest
      rw [Spelling.textBy_eq hcodec] at hdraw
      exact ⟨_, _, hdraw⟩
    · exact ⟨_, _, next_of_isFinalGap hfinal⟩
    · exact absurd hunclosed hclosed

/-- A skip from behind some items goes as far as one from in front of them. -/
theorem skip_of_gap {scanner : Scanner} {gap rest : List Byte} (hgap : Gap.IsGap gap)
    (hrest : scanner.rest = gap ++ rest) : (scanner.move gap rest).skip = scanner.skip := by
  have hmoved : (scanner.move gap rest).rest = rest := rfl
  rw [skip, skip, hmoved, hrest, Gap.read_append hgap]
  cases Gap.read rest <;> simp only [Gap.prepend, move_move]

/-- A gap in front of what is left changes nothing but where the draw starts from. -/
theorem next_of_gap {scanner : Scanner} {gap rest : List Byte} (hgap : Gap.IsGap gap)
    (hrest : scanner.rest = gap ++ rest) : scanner.next = (scanner.move gap rest).next := by
  rw [next, next, skip_of_gap hgap hrest]

theorem source_of_next {scanner after : Scanner} {outcome : Except Fault Token}
    (hdraw : scanner.next = (after, outcome)) :
    after.source = scanner.source ∧ after.encoding = scanner.encoding := by
  cases hread : Gap.read scanner.rest with
  | clear span rest =>
      rw [next_of_read hread, token] at hdraw
      dsimp only at hdraw
      split at hdraw <;> obtain ⟨rfl, _⟩ := Prod.mk.inj hdraw <;> exact ⟨rfl, rfl⟩
  | unclosed span comment =>
      rw [next_of_read_unclosed hread] at hdraw
      obtain ⟨rfl, _⟩ := Prod.mk.inj hdraw
      exact ⟨rfl, rfl⟩

/-- A draw is known from the kind, the text and the location of its token. -/
theorem next_eq_of_map {scanner : Scanner} {token : Token}
    (hdrawn : scanner.next.2.toOption.map (fun drawn => (drawn.key, drawn.location)) =
      some (token.key, token.location)) : scanner.next = (scanner.next.1, .ok token) := by
  rcases hdraw : scanner.next with ⟨after, fault | ⟨kind, text, location⟩⟩
  · rw [hdraw] at hdrawn
    cases hdrawn
  · rw [hdraw] at hdrawn
    obtain ⟨hkey, rfl⟩ := Prod.mk.inj (Option.some.inj hdrawn)
    obtain ⟨rfl, rfl⟩ := Prod.mk.inj hkey
    rfl

/-! ## Draws in a row -/

/-- Tokens that a scanner hands out one after the other, and the scanner after them. -/
inductive Draws : Scanner → List Token → Scanner → Prop where
  | nil (scanner : Scanner) : Draws scanner [] scanner
  | cons {scanner middle after : Scanner} {token : Token} {tokens : List Token}
      (hdraw : scanner.next = (middle, .ok token)) (hlater : Draws middle tokens after) :
      Draws scanner (token :: tokens) after

namespace Draws

theorem append {scanner middle after : Scanner} {first second : List Token}
    (hfirst : Draws scanner first middle) (hsecond : Draws middle second after) :
    Draws scanner (first ++ second) after := by
  induction hfirst with
  | nil => exact hsecond
  | cons hdraw _ ih => exact .cons hdraw (ih hsecond)

theorem concat_iff {scanner after : Scanner} {tokens : List Token} {last : Token} :
    Draws scanner (tokens ++ [last]) after ↔
      ∃ middle, Draws scanner tokens middle ∧ middle.next = (after, .ok last) := by
  constructor
  · intro hdraws
    induction tokens generalizing scanner with
    | nil =>
        cases hdraws with
        | cons hdraw hlater =>
            cases hlater
            exact ⟨scanner, .nil scanner, hdraw⟩
    | cons token tokens ih =>
        cases hdraws with
        | cons hdraw hlater =>
            obtain ⟨middle, htokens, hlast⟩ := ih hlater
            exact ⟨middle, .cons hdraw htokens, hlast⟩
  · rintro ⟨middle, htokens, hlast⟩
    exact htokens.append (.cons hlast (.nil after))

theorem source_eq {scanner after : Scanner} {tokens : List Token}
    (hdraws : scanner.Draws tokens after) : after.source = scanner.source := by
  induction hdraws with
  | nil => rfl
  | cons hdraw _ ih => exact ih.trans (source_of_next hdraw).1

/-- Tokens are drawn in one way only. -/
theorem unique {scanner first second : Scanner} {tokens : List Token}
    (hfirst : scanner.Draws tokens first) (hsecond : scanner.Draws tokens second) :
    first = second := by
  induction hfirst with
  | nil =>
      cases hsecond
      rfl
  | cons hdraw _ ih =>
      cases hsecond with
      | cons hother hlater =>
          rw [hdraw] at hother
          obtain ⟨rfl, _⟩ := mk_ok_inj hother
          exact ih hlater

end Draws

end Scanner

end LetLang
