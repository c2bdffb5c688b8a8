import LetLang.Proofs.Comparison

/-!
# Draws of which some fail

Draws in a row go on after a failure. What they give is a list of outcomes, each of which is a token
or a fault, and they are in the order of time. The draws of a reading are token after token, and the
last one may fail. A token of no use has been drawn all right.
-/

namespace LetLang

namespace Scanner

/-- What the draws of a scanner give one after the other, and the scanner after them. -/
inductive Yields : Scanner → List (Except Fault Token) → Scanner → Prop where
  | nil (scanner : Scanner) : Yields scanner [] scanner
  | cons {scanner middle after : Scanner} {outcome : Except Fault Token}
      {outcomes : List (Except Fault Token)} (hdraw : scanner.next = (middle, outcome))
      (hlater : Yields middle outcomes after) : Yields scanner (outcome :: outcomes) after

theorem yields_next (scanner : Scanner) : scanner.Yields [scanner.next.2] scanner.next.1 :=
  .cons rfl (.nil _)

namespace Yields

variable {scanner middle after : Scanner} {first second outcomes : List (Except Fault Token)}

theorem append (hfirst : scanner.Yields first middle) (hsecond : middle.Yields second after) :
    scanner.Yields (first ++ second) after := by
  induction hfirst with
  | nil => exact hsecond
  | cons hdraw _ ih => exact .cons hdraw (ih hsecond)

/-- Each outcome is that of the draw with its number. -/
theorem getElem? (hyields : scanner.Yields outcomes after) :
    ∀ count < outcomes.length, outcomes[count]? = some (scanner.afterDraws count).next.2 := by
  induction hyields with
  | nil => simp
  | cons hdraw _ ih =>
      intro count hcount
      cases count with
      | zero => rw [afterDraws_zero, hdraw, List.getElem?_cons_zero]
      | succ count =>
          rw [List.getElem?_cons_succ, afterDraws_of_next hdraw]
          exact ih count (Nat.lt_of_succ_lt_succ hcount)

theorem eq_afterDraws (hyields : scanner.Yields outcomes after) :
    after = scanner.afterDraws outcomes.length := by
  induction hyields with
  | nil => rfl
  | cons hdraw _ ih => rw [List.length_cons, afterDraws_of_next hdraw, ih]

end Yields

theorem Draws.yields {scanner after : Scanner} {tokens : List Token}
    (hdraws : scanner.Draws tokens after) : scanner.Yields (tokens.map .ok) after := by
  induction hdraws with
  | nil => exact .nil _
  | cons hdraw _ ih => exact .cons hdraw ih

end Scanner

/-- Whether a draw may fail with this fault. -/
def Fault.isDrawn : Fault → Bool
  | .diagnostic report => !report.cause.isGrammatical
  | .encoding _ => true

theorem Scanner.isDrawn_of_next {scanner after : Scanner} {fault : Fault}
    (hdraw : scanner.next = (after, .error fault)) : fault.isDrawn = true := by
  rcases next_error_cases hdraw with ⟨_, _, _, _, _, rfl, _⟩ | ⟨_, _, _, _, _, _, _, _, _, rfl, _⟩
  · rfl
  · rfl

/-- What the draws of a reading gave. -/
def Reading.draws (reading : Reading) : List (Except Fault Token) :=
  reading.tokens.map .ok ++ (reading.fault.filter Fault.isDrawn).toList.map .error

/-- The tokens that a reading has drawn are those that its draws gave. -/
theorem Reading.filterMap_draws (reading : Reading) :
    reading.draws.filterMap Except.toOption = reading.tokens := by
  have htokens : (reading.tokens.map (.ok : Token → Except Fault Token)).filterMap
      Except.toOption = reading.tokens := by
    rw [List.filterMap_map]
    exact List.filterMap_some
  have hfaults (faults : List Fault) :
      (faults.map (.error : Fault → Except Fault Token)).filterMap Except.toOption = [] := by
    rw [List.filterMap_map, List.filterMap_eq_nil_iff]
    exact fun _ _ => rfl
  rw [draws, List.filterMap_append, htokens, hfaults, List.append_nil]

/-- A reading draws token after token, and leaves the scanner where its last draw does. -/
theorem Statement.yields_readFrom (stage : Stage) (scanner : Scanner) (current : Token) :
    scanner.Yields (readFrom stage scanner current).draws
      (readFrom stage scanner current).scanner := by
  cases readFrom_outcome stage scanner current with
  | completed tokens last target _ hdraws htokens _ hfault =>
      rw [Reading.draws, htokens, hfault]
      simpa using hdraws.yields
  | refused _ _ needed _ _ _ _ _ _ hdraws hfault =>
      have hrefused : (some (Fault.diagnostic (unexpected scanner.source
          (readFrom stage scanner current).current needed))).filter Fault.isDrawn = none := rfl
      rw [Reading.draws, hfault, hrefused]
      simpa using hdraws.yields
  | failed _ _ fault _ hdraws hdraw _ hfault =>
      rw [Reading.draws, hfault, Option.filter_some_pos (Scanner.isDrawn_of_next hdraw)]
      exact hdraws.yields.append (.cons hdraw (.nil _))

end LetLang
