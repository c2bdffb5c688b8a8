import LetLang.Token.Kind
import Mathlib.Data.List.Basic
import Mathlib.Data.List.TakeWhile

/-!
# Classes and runs of bytes

A byte that goes on with a word or is a mark is no blank, and no byte has two meanings at the
start of a token; a digit goes on with a word all the same. A run of bytes of one class ends
before the first byte of another.
-/

namespace LetLang

/-- A run of elements that pass a test stops before an element that does not, or at the end. -/
theorem takeWhile_append_of_stop {α : Type} {test : α → Bool} {run : List α} (rest : List α)
    (hrun : ∀ element ∈ run, test element = true)
    (hstop : ∀ element ∈ rest.head?, test element = false) :
    (run ++ rest).takeWhile test = run ∧ (run ++ rest).dropWhile test = rest := by
  rw [List.takeWhile_append_of_pos hrun, List.dropWhile_append_of_pos hrun]
  cases rest with
  | nil => simp
  | cons element rest => simp [hstop element rfl]

/-- What is dropped after a run is empty or starts with an element that ends the run. -/
theorem head?_dropWhile {α : Type} (test : α → Bool) (elements : List α) :
    ∀ element ∈ (elements.dropWhile test).head?, test element = false := by
  intro element helement
  have hhead := List.head?_dropWhile_not test elements
  rw [Option.mem_def.mp helement] at hhead
  simpa using hhead

end LetLang

namespace LetLang.Byte

@[simp]
theorem isBlank_slash : slash.isBlank = false := by decide

@[simp]
theorem isBlank_lineFeed : lineFeed.isBlank = true := by decide

@[simp]
theorem isBlank_quote : quote.isBlank = false := by decide

@[simp]
theorem star_ne_slash : star ≠ slash := by decide

@[simp]
theorem toNat_toChar (byte : Byte) : byte.toChar.toNat = byte.toNat := by
  have hbyte := byte.toNat_lt
  have hvalid : byte.toNat.isValidChar := Or.inl (by omega)
  rw [toChar, Char.ofNat, dif_pos hvalid]
  rfl

theorem toChar_injective : Function.Injective toChar := by
  intro first second hchar
  have hnumber := congrArg Char.toNat hchar
  rw [toNat_toChar, toNat_toChar] at hnumber
  exact UInt8.toNat_inj.mp hnumber

@[simp]
theorem isDigit_toChar (byte : Byte) : byte.toChar.isDigit = byte.isDigit := by
  rw [Bool.eq_iff_iff, Char.isDigit_iff_toNat, toNat_toChar]
  simp only [isDigit, Bool.and_eq_true, decide_eq_true_eq, UInt8.le_iff_toNat_le]
  exact Iff.rfl

theorem continuesWord_of_startsWord {byte : Byte} (hstart : byte.startsWord = true) :
    byte.continuesWord = true := by
  simp [continuesWord, hstart]

theorem continuesWord_of_isDigit {byte : Byte} (hdigit : byte.isDigit = true) :
    byte.continuesWord = true := by
  simp [continuesWord, hdigit]

theorem isDigit_of_not_continuesWord {byte : Byte} (hword : byte.continuesWord = false) :
    byte.isDigit = false :=
  (Bool.or_eq_false_iff.mp hword).2

theorem isBlank_of_continuesWord {byte : Byte} (hword : byte.continuesWord = true) :
    byte.isBlank = false := by
  grind [continuesWord, startsWord, isLetter, isDigit, underscore, isBlank, carriageReturn,
    lineFeed]

theorem printable_of_continuesWord {byte : Byte} (hword : byte.continuesWord = true) :
    0x20 ≤ byte.toNat ∧ byte.toNat < 0x7F := by
  grind [continuesWord, startsWord, isLetter, isDigit, underscore, UInt8.le_iff_toNat_le]

theorem startsWord_of_isDigit {byte : Byte} (hdigit : byte.isDigit = true) :
    byte.startsWord = false := by
  grind [startsWord, isLetter, isDigit, underscore]

theorem isDigit_of_startsWord {byte : Byte} (hstart : byte.startsWord = true) :
    byte.isDigit = false := by
  cases hdigit : byte.isDigit with
  | false => rfl
  | true => exact absurd hstart (by simp [startsWord_of_isDigit hdigit])

theorem continuesWord_of_isBlank {byte : Byte} (hblank : byte.isBlank = true) :
    byte.continuesWord = false := by
  cases hword : byte.continuesWord with
  | false => rfl
  | true => exact absurd hblank (by simp [isBlank_of_continuesWord hword])

theorem ne_slash_of_continuesWord {byte : Byte} (hword : byte.continuesWord = true) :
    byte ≠ slash := by
  rintro rfl
  exact absurd hword (by decide)

end LetLang.Byte

namespace LetLang.Mark

/-- A mark is neither a blank nor a quote nor part of a word. -/
theorem byte_class (sign : Mark) :
    sign.byte.isBlank = false ∧ sign.byte.continuesWord = false ∧ sign.byte ≠ Byte.quote := by
  cases sign <;> decide

theorem ne_byte_of_continuesWord {byte : Byte} (hword : byte.continuesWord = true) (sign : Mark) :
    byte ≠ sign.byte := by
  rintro rfl
  simp [sign.byte_class.2.1] at hword

theorem byte_injective {first second : Mark} (hbyte : first.byte = second.byte) :
    first = second := by
  have hread := congrArg ofByte? hbyte
  rw [ofByte?_byte, ofByte?_byte] at hread
  exact Option.some.inj hread

theorem ofByte?_eq_none_iff {byte : Byte} :
    ofByte? byte = none ↔ ∀ sign : Mark, sign.byte ≠ byte := by
  simp [ofByte?, mem_all]

end LetLang.Mark

namespace LetLang

theorem latinText_injective : Function.Injective latinText := fun _ _ htext =>
  List.map_injective_iff.mpr Byte.toChar_injective (String.ofList_injective htext)

end LetLang
