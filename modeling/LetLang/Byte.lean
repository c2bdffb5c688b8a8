/-!
# Bytes and their classes

Source text is read one byte at a time. This module names the bytes that have a
meaning of their own and the classes that decide where a token starts and ends.
All classes are ASCII: a byte from 128 upwards is in none of them.
-/

namespace LetLang

/-- One byte of source text. -/
abbrev Byte := UInt8

namespace Byte

/-- The byte that stands for the end of the input wherever it occurs. -/
def nul : Byte := 0x00

def lineFeed : Byte := 0x0A

def carriageReturn : Byte := 0x0D

def quote : Byte := 0x22

def star : Byte := 0x2A

def slash : Byte := 0x2F

/-- The digit that is a number by itself. -/
def zero : Byte := 0x30

def underscore : Byte := 0x5F

/-- A blank separates tokens: space, tab, carriage return or line feed. -/
def isBlank (byte : Byte) : Bool :=
  byte == 0x20 || byte == 0x09 || byte == carriageReturn || byte == lineFeed

def isDigit (byte : Byte) : Bool :=
  0x30 ≤ byte && byte ≤ 0x39

def isLetter (byte : Byte) : Bool :=
  (0x41 ≤ byte && byte ≤ 0x5A) || (0x61 ≤ byte && byte ≤ 0x7A)

def startsWord (byte : Byte) : Bool :=
  byte.isLetter || byte == underscore

def continuesWord (byte : Byte) : Bool :=
  byte.startsWord || byte.isDigit

/-- The character with the byte's number, which is its reading in Latin-1. -/
def toChar (byte : Byte) : Char :=
  Char.ofNat byte.toNat

end Byte

/-- The text with one character for each byte. -/
def latinText (bytes : List Byte) : String :=
  String.ofList (bytes.map Byte.toChar)

end LetLang
