import LetLang.Text.Unprintable

/-!
# Quoted text

Quoted text shows any string on one line between quotes. Single quotes are used
unless the string holds a single quote and no double quote. The quote in use and
the backslash are escaped, tab, line feed and carriage return have letters, and
every other character without a visible form is written by its number.
-/

namespace LetLang.Text

/-- A number in lowercase hexadecimal, filled with zeros on the left to a width. -/
def hexadecimal (width value : Nat) : String :=
  let digits := Nat.toDigits 16 value
  String.ofList (List.replicate (width - digits.length) '0' ++ digits)

/-- The quote that a string is shown in. -/
def quoteFor (text : String) : Char :=
  if text.toList.contains '\'' && !text.toList.contains '"' then '"' else '\''

/-- The form of one character inside quotes. -/
def quotedChar (quote char : Char) : String :=
  if char = quote ∨ char = '\\' then String.ofList ['\\', char]
  else if char = '\t' then "\\t"
  else if char = '\n' then "\\n"
  else if char = '\r' then "\\r"
  else if isUnprintable char then
    if char.toNat ≤ 0xFF then "\\x" ++ hexadecimal 2 char.toNat
    else if char.toNat ≤ 0xFFFF then "\\u" ++ hexadecimal 4 char.toNat
    else "\\U" ++ hexadecimal 8 char.toNat
  else char.toString

/-- A string between quotes, on one line. -/
def quoted (text : String) : String :=
  let quote := quoteFor text
  quote.toString ++ String.join (text.toList.map (quotedChar quote)) ++ quote.toString

end LetLang.Text
