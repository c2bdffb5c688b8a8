import LetLang.Encoding.SingleByte
import LetLang.Encoding.Utf16

/-!
# Encodings of string literals

The body of a string literal is decoded by an encoding that is chosen by name. A name
is read by its words: letters of either case count the same, and any run of other
characters between two words counts as one separator. Some names stand for a change
of bytes into bytes or of text into text, and some for an encoding that decodes nothing;
they are known, and yet no string can be decoded by them.

The table of names is the part of a registry that this library brings along. Where a program
runs more names may be known, of other tables of characters for instance. A decoder is a name
together with what it stands for elsewhere if the table does not have it, so what is said of
every decoder holds whatever the registry is. Text is made of scalar values: what would read
bytes as half of a surrogate pair is no decoder.
-/

namespace LetLang

/-- A way to read bytes as text. -/
inductive Encoding where
  | utf8
  /-- UTF-8 without its leading byte order mark. -/
  | utf8Signed
  | ascii
  | latin1
  | windows1252
  /-- UTF-16 in the order that a byte order mark shows. -/
  | utf16
  | utf16Little
  | utf16Big
  deriving DecidableEq, Repr

namespace Encoding

/-- Decode bytes. Decoding never fails: what has no meaning is replaced. -/
def decode (encoding : Encoding) (bytes : List Byte) : String :=
  String.ofList <|
    match encoding with
    | .utf8 => Utf8.decode bytes
    | .utf8Signed => Utf8.decodeSigned bytes
    | .ascii => bytes.map asciiChar
    | .latin1 => bytes.map Byte.toChar
    | .windows1252 => bytes.map windowsChar
    | .utf16 => Utf16.decode bytes
    | .utf16Little => Utf16.decodeOrdered .littleEndian bytes
    | .utf16Big => Utf16.decodeOrdered .bigEndian bytes

/-- What the name of an encoding stands for. -/
inductive Meaning where
  | text (encoding : Encoding)
  /-- A change of bytes into bytes or of text into text, which decodes no string. -/
  | transform
  /-- An encoding of text that refuses all bytes, for a reason. -/
  | refusing (reason : String)
  | unknown
  deriving DecidableEq, Repr

/-- Letters, digits and the full stop make up the words of a name. -/
def isNameChar (char : Char) : Bool :=
  char.isAlphanum || char == '.'

/-- The words of a name in lower case, with one underscore between them. -/
def normalName (name : String) : String :=
  let words := (name.toList.splitOnP (!isNameChar ·)).filter (!·.isEmpty)
  "_".intercalate (words.map fun word => String.ofList (word.map Char.toLower))

/-- The names of the table under each thing that they stand for. -/
def nameGroups : List (Meaning × List String) := [
  (.text .utf8, ["utf_8", "utf8", "u8", "utf", "utf8_ucs2", "utf8_ucs4", "cp65001"]),
  (.text .utf8Signed, ["utf_8_sig"]),
  (.text .ascii, ["ascii", "us_ascii", "646", "us", "cp367", "csascii", "ibm367", "iso646_us",
    "iso_646.irv_1991", "iso_ir_6", "ansi_x3.4_1968", "ansi_x3.4_1986", "ansi_x3_4_1968"]),
  (.text .latin1, ["latin_1", "latin1", "latin", "l1", "iso_8859_1", "iso8859_1", "iso8859",
    "8859", "cp819", "csisolatin1", "ibm819", "iso_8859_1_1987", "iso_ir_100"]),
  (.text .windows1252, ["cp1252", "windows_1252", "1252"]),
  (.text .utf16, ["utf_16", "utf16", "u16"]),
  (.text .utf16Little, ["utf_16_le", "utf_16le", "unicodelittleunmarked"]),
  (.text .utf16Big, ["utf_16_be", "utf_16be", "unicodebigunmarked"]),
  (.transform, ["hex", "hex_codec", "base64", "base_64", "base64_codec", "bz2", "bz2_codec",
    "quopri", "quoted_printable", "quotedprintable", "quopri_codec", "rot13", "rot_13", "uu",
    "uu_codec", "zip", "zlib", "zlib_codec"]),
  (.refusing "UnicodeError: Unsupported error handling replace", ["idna"]),
  (.refusing "UnicodeError: undefined encoding", ["undefined"])]

def names : List (String × Meaning) :=
  nameGroups.flatMap fun (meaning, group) => group.map (·, meaning)

/-- What a name stands for in the table. -/
def named (name : String) : Meaning :=
  (names.lookup (normalName name)).getD .unknown

def defaultName : String := "utf-8"

/-- Why bytes cannot be decoded. A cause that is due to the name keeps it as it was given. -/
inductive Fault where
  | unknown (name : String)
  | notText (name : String)
  | refused (name reason : String)
  /-- What an encoding that is not in the table says. -/
  | elsewhere (complaint : String)
  deriving DecidableEq, Repr

def Fault.message : Fault → String
  | .unknown name => "unknown encoding: " ++ name
  | .notText name =>
      "'" ++ name ++ "' is not a text encoding; use codecs.decode() to handle arbitrary codecs"
  | .refused name reason => "decoding with '" ++ name ++ ("' codec failed (" ++ reason ++ ")")
  | .elsewhere complaint => complaint

/-- The encoding to decode by under a name of the table. -/
def find (name : String) : Except Fault Encoding :=
  match named name with
  | .text encoding => .ok encoding
  | .transform => .error (.notText name)
  | .refusing reason => .error (.refused name reason)
  | .unknown => .error (.unknown name)

/-- Decode bytes under a name of the table. No bytes are the empty text under every name, usable
or not. -/
def decodeNamed (name : String) (bytes : List Byte) : Except Fault String :=
  if bytes.isEmpty then .ok "" else (find name).map (·.decode bytes)

end Encoding

/-- What string literals are decoded by. -/
structure Decoder where
  /-- The name of the encoding. -/
  name : String
  /-- How bytes are read, or why they are not, under a name that the table does not have. -/
  elsewhere : Option (List Byte → Except String String)

namespace Decoder

/-- The decoder that a name stands for where no names are known but those of the table. -/
def ofName (name : String) : Decoder := ⟨name, none⟩

instance : Coe String Decoder := ⟨ofName⟩

/-- Whether the name of a decoder stands for anything. -/
def IsKnown (decoder : Decoder) : Prop :=
  Encoding.named decoder.name ≠ .unknown ∨ decoder.elsewhere.isSome = true

instance (decoder : Decoder) : Decidable decoder.IsKnown :=
  inferInstanceAs (Decidable (_ ∨ _))

/-- Decode bytes. No bytes are the empty text here as well. -/
def decode (decoder : Decoder) (bytes : List Byte) : Except Encoding.Fault String :=
  match Encoding.named decoder.name, decoder.elsewhere with
  | .unknown, some read => if bytes.isEmpty then .ok "" else (read bytes).mapError .elsewhere
  | _, _ => Encoding.decodeNamed decoder.name bytes

/-- Under a name of the table it makes no difference what is known elsewhere. -/
theorem decode_of_named {decoder : Decoder} (hnamed : Encoding.named decoder.name ≠ .unknown) :
    decoder.decode = Encoding.decodeNamed decoder.name := by
  funext bytes
  unfold decode
  split
  next hunknown _ => exact absurd hunknown hnamed
  next => rfl

theorem decode_ofName (name : String) :
    (ofName name).decode = Encoding.decodeNamed name := by
  funext bytes
  unfold decode
  split
  next hnone => cases hnone
  next => rfl

theorem decode_nil (decoder : Decoder) : decoder.decode [] = .ok "" := by
  unfold decode
  split <;> rfl

/-- An encoding of text decodes all bytes. -/
theorem decode_of_find {decoder : Decoder} {encoding : Encoding}
    (hfind : Encoding.find decoder.name = .ok encoding) (bytes : List Byte) :
    decoder.decode bytes = .ok (encoding.decode bytes) := by
  have hnamed : Encoding.named decoder.name ≠ .unknown := by
    intro hunknown
    simp [Encoding.find, hunknown] at hfind
  rw [decode_of_named hnamed, Encoding.decodeNamed, hfind]
  cases bytes with
  | nil => cases encoding <;> rfl
  | cons byte bytes => rfl

end Decoder

end LetLang
