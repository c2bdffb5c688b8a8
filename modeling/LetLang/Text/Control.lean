/-!
# Control sequences

A terminal takes an escape character and an opening bracket as the start of a control
sequence: parameters, then intermediates, then one final character. What is written to a
stream that need not be a terminal is plain: it has no control sequence. An escape
character that starts no complete sequence stays.
-/

namespace LetLang.Text

/-- The character that a control sequence starts with. -/
def escape : Char := '\x1b'

/-- Whether a character has a code between two bounds, ends included. -/
def isBetween (first last char : Char) : Bool :=
  first ≤ char && char ≤ last

/-- The digits and signs that come first in a control sequence. -/
def isParameter (char : Char) : Bool := isBetween '0' '?' char

/-- The characters that may come between the parameters and the final character. -/
def isIntermediate (char : Char) : Bool := isBetween ' ' '/' char

/-- The characters that complete a control sequence. -/
def isFinal (char : Char) : Bool := isBetween '@' '~' char

/-- What follows the control sequence at the front of a text, if there is a complete one. -/
def afterControl? : List Char → Option (List Char)
  | first :: '[' :: rest =>
      if first = escape then
        match (rest.dropWhile isParameter).dropWhile isIntermediate with
        | final :: after => if isFinal final then some after else none
        | [] => none
      else none
  | _ => none

theorem length_lt_of_afterControl? {text after : List Char}
    (hcontrol : afterControl? text = some after) : after.length < text.length := by
  unfold afterControl? at hcontrol
  split at hcontrol
  next first rest =>
    split at hcontrol
    next =>
      split at hcontrol
      next final tail hdrop =>
        split at hcontrol
        next =>
          obtain rfl := Option.some.inj hcontrol
          have hinner := (List.dropWhile_sublist isIntermediate
            (l := rest.dropWhile isParameter)).length_le
          have houter := (List.dropWhile_sublist isParameter (l := rest)).length_le
          rw [hdrop, List.length_cons] at hinner
          simp only [List.length_cons]
          omega
        next => simp at hcontrol
      next => simp at hcontrol
    next => simp at hcontrol
  next => simp at hcontrol

/-- The characters that are left when every control sequence is taken out. -/
def plainChars (text : List Char) : List Char :=
  match text with
  | [] => []
  | char :: rest =>
      match _ : afterControl? (char :: rest) with
      | some after => plainChars after
      | none => char :: plainChars rest
termination_by text.length
decreasing_by
  · exact length_lt_of_afterControl? ‹_›
  · simp

/-- A text without its control sequences. -/
def plain (text : String) : String :=
  String.ofList (plainChars text.toList)

/-- No character starts a control sequence but the escape character. -/
theorem afterControl?_eq_none {char : Char} (rest : List Char) (hchar : char ≠ escape) :
    afterControl? (char :: rest) = none := by
  unfold afterControl?
  split
  next first tail heq =>
    obtain ⟨rfl, rfl⟩ := List.cons.inj heq
    simp [hchar]
  next => rfl

theorem plainChars_eq_self {text : List Char} (htext : escape ∉ text) :
    plainChars text = text := by
  induction text with
  | nil => simp [plainChars]
  | cons char rest ih =>
      simp only [List.mem_cons, not_or] at htext
      obtain ⟨hchar, hrest⟩ := htext
      rw [plainChars]
      split
      next after hcontrol => simp [afterControl?_eq_none rest (Ne.symm hchar)] at hcontrol
      next => rw [ih hrest]

/-- A text without escape characters is written as it is. -/
theorem plain_eq_self {text : String} (htext : escape ∉ text.toList) : plain text = text := by
  rw [plain, plainChars_eq_self htext, String.ofList_toList]

end LetLang.Text
