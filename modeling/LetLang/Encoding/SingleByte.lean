import LetLang.Encoding.Utf8

/-!
# Encodings of one byte per character
-/

namespace LetLang.Encoding

/-- ASCII: a byte from 128 upwards is replaced. -/
def asciiChar (byte : Byte) : Char :=
  if byte < 0x80 then byte.toChar else replacement

/-- The characters of the bytes 80 to 9F in Windows-1252. Five of them have none. -/
def windowsBlock : List Char := [
  '\u20AC', replacement, '\u201A', '\u0192', '\u201E', '\u2026', '\u2020', '\u2021',
  '\u02C6', '\u2030', '\u0160', '\u2039', '\u0152', replacement, '\u017D', replacement,
  replacement, '\u2018', '\u2019', '\u201C', '\u201D', '\u2022', '\u2013', '\u2014',
  '\u02DC', '\u2122', '\u0161', '\u203A', '\u0153', replacement, '\u017E', '\u0178']

/-- Windows-1252 is Latin-1 but for the bytes 80 to 9F. -/
def windowsChar (byte : Byte) : Char :=
  if 0x80 ≤ byte ∧ byte ≤ 0x9F then windowsBlock.getD (byte.toNat - 0x80) replacement
  else byte.toChar

end LetLang.Encoding
