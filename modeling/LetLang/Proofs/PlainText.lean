import LetLang.Proofs.Image
import LetLang.Text.Control

/-!
# Plain text

No control sequence goes on over the end of a line: a line feed can stand nowhere in one. So a text
of lines is made plain line by line, and printable text is plain as it is.
-/

namespace LetLang

namespace Text

/-- A run of characters that a line feed ends is the same whatever follows the line feed. -/
theorem dropWhile_append_lineFeed (test : Char → Bool) (hfeed : test '\n' = false)
    (text rest : List Char) :
    (text ++ '\n' :: rest).dropWhile test = text.dropWhile test ++ '\n' :: rest := by
  rw [List.dropWhile_append]
  split
  next hall =>
    rw [List.dropWhile_cons_of_neg (by simp [hfeed]), List.isEmpty_iff.mp hall, List.nil_append]
  next => rfl

/-- A control sequence ends before the next line feed or is none. -/
theorem afterControl?_append_lineFeed (text rest : List Char) :
    afterControl? (text ++ '\n' :: rest) = (afterControl? text).map (· ++ '\n' :: rest) := by
  match text with
  | [] => exact afterControl?_eq_none rest (by decide)
  | [first] => simp [afterControl?]
  | first :: second :: tail =>
      by_cases hbracket : second = '['
      · subst hbracket
        simp only [List.cons_append, afterControl?,
          dropWhile_append_lineFeed isParameter (by decide),
          dropWhile_append_lineFeed isIntermediate (by decide)]
        split
        next =>
          cases (tail.dropWhile isParameter).dropWhile isIntermediate with
          | nil => rfl
          | cons final after =>
              by_cases hfinal : isFinal final = true <;> simp [hfinal]
        next => rfl
      · simp [afterControl?, hbracket]

theorem plainChars_append_lineFeed (text rest : List Char) :
    plainChars (text ++ '\n' :: rest) = plainChars text ++ '\n' :: plainChars rest := by
  fun_induction plainChars text with
  | case1 =>
      have hfeed : afterControl? ('\n' :: rest) = none :=
        afterControl?_eq_none rest (by decide)
      rw [List.nil_append, List.nil_append, plainChars]
      split
      next hcontrol => cases hcontrol.symm.trans hfeed
      next => rfl
  | case2 char tail after hcontrol ih =>
      -- the control sequence at the front is the same with the line feed behind it
      have hwhole := afterControl?_append_lineFeed (char :: tail) rest
      rw [hcontrol] at hwhole
      rw [List.cons_append, plainChars]
      split
      next hsome =>
        obtain rfl := Option.some.inj (hsome.symm.trans hwhole)
        exact ih
      next hnone => cases hnone.symm.trans hwhole
  | case3 char tail hcontrol ih =>
      have hwhole := afterControl?_append_lineFeed (char :: tail) rest
      rw [hcontrol] at hwhole
      rw [List.cons_append, plainChars]
      split
      next hsome => cases hsome.symm.trans hwhole
      next => rw [ih, List.cons_append]

theorem plain_append_lineFeed (text rest : String) :
    plain (text ++ "\n" ++ rest) = plain text ++ "\n" ++ plain rest := by
  apply String.toList_inj.mp
  simp [plain, plainChars_append_lineFeed]

@[simp]
theorem plain_empty : plain "" = "" := plain_eq_self (by simp)

theorem plain_line (text : String) : plain (text ++ "\n") = plain text ++ "\n" := by
  have hplain := plain_append_lineFeed text ""
  rwa [String.append_empty, plain_empty, String.append_empty] at hplain

/-- A text of lines is made plain line by line. -/
theorem plain_textOfLines (lines : List String) :
    plain (textOfLines lines) = textOfLines (lines.map plain) := by
  induction lines with
  | nil => exact plain_empty
  | cons line lines ih =>
      rw [textOfLines_cons, plain_append_lineFeed, ih, List.map_cons, textOfLines_cons]

end Text

theorem IsPrintable.escape_not_mem {text : String} (htext : IsPrintable text) :
    Text.escape ∉ text.toList := fun hescape => absurd (htext _ hescape) (by decide)

theorem IsPrintable.plain {text : String} (htext : IsPrintable text) : Text.plain text = text :=
  Text.plain_eq_self htext.escape_not_mem

/-- The text of a result is plain as it is. -/
theorem plain_text_of_outcome {options : Options} {source : Source} {result : Result}
    (houtcome : (compile options source).outcome = .ok result) :
    Text.plain result.text = result.text := by
  obtain ⟨statement, hstatement, _, hlines⟩ := exists_wellFormed_of_outcome houtcome
  have hplain (line : String) (hline : line ∈ result.instructions) : Text.plain line = line := by
    rw [hlines] at hline
    exact (hstatement.isPrintable line hline).plain
  rw [Result.text, Text.plain_textOfLines, List.map_congr_left hplain, List.map_id']

end LetLang
