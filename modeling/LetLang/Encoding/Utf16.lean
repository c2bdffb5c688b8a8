import LetLang.Encoding.Utf8

/-!
# UTF-16 with replacement

Two bytes make a unit in one of two orders. A high surrogate and the low surrogate
after it make one character; a surrogate without its partner is replaced. An odd last
byte is replaced as well, together with a high surrogate that stands right before it.
-/

namespace LetLang.Encoding.Utf16

/-- Which byte of a unit comes first. -/
inductive ByteOrder where
  | littleEndian
  | bigEndian
  deriving DecidableEq, Repr

/-- The unit that two bytes make, in the order they are met. -/
def ByteOrder.unit (order : ByteOrder) (first second : Byte) : Nat :=
  match order with
  | .littleEndian => second.toNat * 256 + first.toNat
  | .bigEndian => first.toNat * 256 + second.toNat

/-- The units of a run of bytes, and whether one byte is left over. -/
def units (order : ByteOrder) : List Byte → List Nat × Bool
  | [] => ([], false)
  | [_] => ([], true)
  | first :: second :: rest =>
      let (later, odd) := units order rest
      (order.unit first second :: later, odd)

/-- Whether a unit is the first of a surrogate pair. -/
def isHigh (unit : Nat) : Bool := 0xD800 ≤ unit && unit ≤ 0xDBFF

/-- Whether a unit is the second of a surrogate pair. -/
def isLow (unit : Nat) : Bool := 0xDC00 ≤ unit && unit ≤ 0xDFFF

def single (unit : Nat) : Char :=
  if isHigh unit || isLow unit then replacement else Char.ofNat unit

def pair (high low : Nat) : Char :=
  Char.ofNat (0x10000 + (high - 0xD800) * 0x400 + (low - 0xDC00))

/-- Decode units; `odd` tells that one more byte follows the last of them. -/
def decodeUnits (odd : Bool) : List Nat → List Char
  | [] => if odd then [replacement] else []
  | [unit] => if isHigh unit then [replacement] else single unit :: decodeUnits odd []
  | first :: second :: rest =>
      if isHigh first && isLow second then pair first second :: decodeUnits odd rest
      else single first :: decodeUnits odd (second :: rest)

/-- Decode in a known byte order. A byte order mark is a character like any other. -/
def decodeOrdered (order : ByteOrder) (bytes : List Byte) : List Char :=
  let (found, odd) := units order bytes
  decodeUnits odd found

/-- Decode in the order that a leading byte order mark shows, and drop the mark.
Without one the low byte comes first. -/
def decode (bytes : List Byte) : List Char :=
  match bytes with
  | 0xFF :: 0xFE :: rest => decodeOrdered .littleEndian rest
  | 0xFE :: 0xFF :: rest => decodeOrdered .bigEndian rest
  | _ => decodeOrdered .littleEndian bytes

end LetLang.Encoding.Utf16
