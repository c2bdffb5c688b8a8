import LetLang.Position
import LetLang.Text.Quoted
import LetLang.Token.Kind

/-!
# Tokens

A token has a kind, a text and, when it was read from a source, a location. Two
tokens are the same when kind and text agree; the location is for messages only.
-/

namespace LetLang

/-- One token. The text of a string is its decoded body, and the text of the end of
the input is the name of its kind. -/
structure Token where
  kind : Kind
  text : String
  location : Option Location

namespace Token

/-- The location takes no part in the comparison. -/
instance : BEq Token where
  beq first second := first.kind == second.kind && first.text == second.text

/-- The location takes no part in the hash. -/
instance : Hashable Token where
  hash token := mixHash (hash token.kind.name) (hash token.text)

/-- Tokens compare equal exactly when kind and text agree. -/
theorem beq_iff (first second : Token) :
    (first == second) = true ↔ first.kind = second.kind ∧ first.text = second.text := by
  simp [BEq.beq]

theorem hash_eq_of_beq {first second : Token} (hequal : (first == second) = true) :
    hash first = hash second := by
  obtain ⟨hkind, htext⟩ := (beq_iff first second).mp hequal
  simp [hash, hkind, htext]

/-- How many different tokens a list holds. -/
def distinct (tokens : List Token) : Nat :=
  tokens.eraseDups.length

/-- The form of a token in the log: its kind, its text in quotes, and its place. -/
def render (token : Token) : String :=
  let place :=
    match token.location with
    | some location => ", " ++ toString location.line ++ ":" ++ toString location.column
    | none => ""
  "Token(" ++ token.kind.name ++ ", " ++ Text.quoted token.text ++ place ++ ")"

/-- The form of a token in a listing: its kind and its text as it is. -/
def listing (token : Token) : String :=
  token.kind.name ++ " " ++ token.text

end Token

end LetLang
