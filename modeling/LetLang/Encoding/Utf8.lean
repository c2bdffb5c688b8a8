import LetLang.Byte

/-!
# UTF-8 with replacement

Decoding never fails. An ill-formed sequence becomes one replacement character for
each of its longest parts that a well-formed sequence could start with, and for each
byte that none could start with.
-/

namespace LetLang.Encoding

/-- The character that stands for bytes without a meaning. -/
def replacement : Char := '\uFFFD'

namespace Utf8

/-- A character that is not complete: the bounds of the byte that must follow, how
many more bytes follow that one, and the bits read so far. -/
structure Pending where
  low : Byte
  high : Byte
  more : Nat
  bits : Nat
  deriving DecidableEq, Repr

/-- What a byte does between two characters. -/
inductive Lead where
  | whole (char : Char)
  | opens (pending : Pending)
  | invalid
  deriving DecidableEq, Repr

/-- The meaning of a first byte. The bounds of the second byte rule out overlong
forms, surrogates and numbers past the last code point. -/
def lead (byte : Byte) : Lead :=
  let bits := byte.toNat
  if byte < 0x80 then .whole (Char.ofNat bits)
  else if byte < 0xC2 then .invalid
  else if byte < 0xE0 then .opens ⟨0x80, 0xBF, 0, bits - 0xC0⟩
  else if byte = 0xE0 then .opens ⟨0xA0, 0xBF, 1, 0⟩
  else if byte = 0xED then .opens ⟨0x80, 0x9F, 1, bits - 0xE0⟩
  else if byte < 0xF0 then .opens ⟨0x80, 0xBF, 1, bits - 0xE0⟩
  else if byte = 0xF0 then .opens ⟨0x90, 0xBF, 2, 0⟩
  else if byte < 0xF4 then .opens ⟨0x80, 0xBF, 2, bits - 0xF0⟩
  else if byte = 0xF4 then .opens ⟨0x80, 0x8F, 2, 4⟩
  else .invalid

/-- Read a byte between two characters: the characters it completes and what is
pending after it. -/
def open? (byte : Byte) : List Char × Option Pending :=
  match lead byte with
  | .whole char => ([char], none)
  | .opens pending => ([], some pending)
  | .invalid => ([replacement], none)

/-- Read a byte. One that a pending character cannot go on with ends it by a
replacement and starts anew. -/
def step : Option Pending → Byte → List Char × Option Pending
  | none, byte => open? byte
  | some pending, byte =>
      if pending.low ≤ byte ∧ byte ≤ pending.high then
        let bits := pending.bits * 64 + (byte.toNat - 0x80)
        match pending.more with
        | 0 => ([Char.ofNat bits], none)
        | more + 1 => ([], some ⟨0x80, 0xBF, more, bits⟩)
      else
        let (chars, next) := open? byte
        (replacement :: chars, next)

/-- Decode the bytes that follow a pending character. One that the input cuts off
is replaced. -/
def decodeFrom : Option Pending → List Byte → List Char
  | none, [] => []
  | some _, [] => [replacement]
  | pending, byte :: rest =>
      let (chars, next) := step pending byte
      chars ++ decodeFrom next rest

/-- Decode UTF-8. A byte order mark is a character like any other. -/
def decode (bytes : List Byte) : List Char :=
  decodeFrom none bytes

/-- Decode UTF-8 and drop one leading byte order mark. -/
def decodeSigned (bytes : List Byte) : List Char :=
  match bytes with
  | 0xEF :: 0xBB :: 0xBF :: rest => decode rest
  | _ => decode bytes

end Utf8

end LetLang.Encoding
