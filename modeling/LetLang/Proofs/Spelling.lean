import LetLang.Lexeme
import LetLang.Proofs.GapReading

/-!
# Spellings of tokens

Which bytes a token of each kind is written with, said without reading them. A spelling is
read back exactly where what follows does not go on with it, and every text that starts with
no gap starts with the spelling of one token.
-/

namespace LetLang

/-- A letter or an underscore, then letters, digits and underscores. -/
def IsWord : List Byte → Prop
  | [] => False
  | first :: rest => first.startsWord = true ∧ ∀ byte ∈ rest, byte.continuesWord = true

/-- A zero by itself, or digits of which the first is not zero. -/
def IsNumber : List Byte → Prop
  | [] => False
  | first :: rest =>
      first = Byte.zero ∧ rest = [] ∨
        first ≠ Byte.zero ∧ first.isDigit = true ∧ ∀ byte ∈ rest, byte.isDigit = true

theorem IsWord.exists_first {bytes : List Byte} (hword : IsWord bytes) :
    ∃ first, bytes.head? = some first ∧ first.startsWord = true := by
  cases bytes with
  | nil => exact absurd hword id
  | cons first rest => exact ⟨first, rfl, hword.1⟩

theorem IsNumber.exists_first {bytes : List Byte} (hnumber : IsNumber bytes) :
    ∃ first, bytes.head? = some first ∧ first.isDigit = true := by
  cases bytes with
  | nil => exact absurd hnumber id
  | cons first rest =>
      refine ⟨first, rfl, ?_⟩
      rcases hnumber with ⟨rfl, _⟩ | ⟨_, hdigit, _⟩
      · decide
      · exact hdigit

theorem IsWord.continuesWord_of_mem {bytes : List Byte} (hword : IsWord bytes) :
    ∀ byte ∈ bytes, byte.continuesWord = true := by
  cases bytes with
  | nil => exact absurd hword id
  | cons first rest =>
      exact List.forall_mem_cons.mpr ⟨Byte.continuesWord_of_startsWord hword.1, hword.2⟩

theorem IsNumber.isDigit_of_mem {bytes : List Byte} (hnumber : IsNumber bytes) :
    ∀ byte ∈ bytes, byte.isDigit = true := by
  cases bytes with
  | nil => exact absurd hnumber id
  | cons first rest =>
      rcases hnumber with ⟨rfl, rfl⟩ | ⟨_, hdigit, hrest⟩
      · exact List.forall_mem_singleton.mpr (by decide)
      · exact List.forall_mem_cons.mpr ⟨hdigit, hrest⟩

instance : DecidablePred IsWord
  | [] => isFalse id
  | first :: rest =>
      decidable_of_iff (first.startsWord = true ∧ rest.all (·.continuesWord) = true)
        (by simp [IsWord])

instance : DecidablePred IsNumber
  | [] => isFalse id
  | first :: rest =>
      decidable_of_iff (first = Byte.zero ∧ rest = [] ∨
        first ≠ Byte.zero ∧ first.isDigit = true ∧ rest.all (·.isDigit) = true)
        (by simp [IsNumber])

def Keyword.bytes (reserved : Keyword) : List Byte :=
  reserved.word.toList.map fun char => UInt8.ofNat char.toNat

@[simp]
theorem Keyword.latinText_bytes (reserved : Keyword) :
    latinText reserved.bytes = reserved.word := by
  cases reserved <;> rfl

theorem Keyword.isWord_bytes (reserved : Keyword) : IsWord reserved.bytes := by
  cases reserved <;> decide

theorem Keyword.ofWord?_word (reserved : Keyword) : ofWord? reserved.word = some reserved := by
  cases reserved <;> decide

theorem Keyword.ofWord?_eq_none_iff {word : String} :
    ofWord? word = none ↔ ∀ reserved : Keyword, reserved.word ≠ word := by
  simp [ofWord?, mem_all]

/-- A token as it is written, by what it is. -/
inductive Spelling where
  | keyword (reserved : Keyword)
  | identifier (name : List Byte)
  | number (digits : List Byte)
  | mark (sign : Mark)
  | illegal (byte : Byte)
  /-- A string literal by what stands inside, and whether its closing quote is present. -/
  | string (body : List Byte) (closed : Bool)
  deriving DecidableEq, Repr

namespace Spelling

def bytes : Spelling → List Byte
  | .keyword reserved => reserved.bytes
  | .identifier name => name
  | .number digits => digits
  | .mark sign => [sign.byte]
  | .illegal byte => [byte]
  | .string body closed => Byte.quote :: body ++ if closed then [Byte.quote] else []

def kind : Spelling → Kind
  | .keyword reserved => .keyword reserved
  | .identifier _ => .identifier
  | .number _ => .number
  | .mark sign => .mark sign
  | .illegal _ => .illegal
  | .string _ _ => .string

/-- The text of a token: the decoded body of a string, and else the bytes themselves. -/
def text (codec : Encoding) : Spelling → String
  | .string body _ => codec.decode body
  | spelling => latinText spelling.bytes

/-- The text of a token under a decoder, which may be of no use. -/
def textBy (encoding : Decoder) : Spelling → Except Encoding.Fault String
  | .string body _ => encoding.decode body
  | spelling => .ok (latinText spelling.bytes)

/-- Whether the bytes are what they are called. An identifier is a word and no keyword, and an
illegal byte starts no token of another kind. -/
def Valid : Spelling → Prop
  | .identifier name => IsWord name ∧ ∀ reserved : Keyword, latinText name ≠ reserved.word
  | .number digits => IsNumber digits
  | .illegal byte =>
      byte.isBlank = false ∧ byte ≠ Byte.quote ∧ byte.continuesWord = false ∧
        ∀ sign : Mark, byte ≠ sign.byte
  | .string body _ => Byte.quote ∉ body
  | .keyword _ | .mark _ => True

/-- Whether a token ends where these bytes follow: they do not go on with it, make a comment of
it, or come after a literal that lacks its closing quote. -/
def EndsBefore (spelling : Spelling) (following : List Byte) : Prop :=
  match spelling with
  | .keyword _ | .identifier _ => ∀ byte ∈ following.head?, byte.continuesWord = false
  | .number digits => digits ≠ [Byte.zero] → ∀ byte ∈ following.head?, byte.isDigit = false
  | .mark sign =>
      sign = .slash → ∀ byte ∈ following.head?, byte ≠ Byte.slash ∧ byte ≠ Byte.star
  | .illegal _ => True
  | .string _ closed => closed = false → following = []

/-- The lexeme that a spelling is read as. -/
def lexeme : Spelling → Lexeme
  | .keyword reserved => .word reserved.bytes
  | .identifier name => .word name
  | .number digits => .number digits
  | .mark sign => .single sign.byte
  | .illegal byte => .single byte
  | .string body closed => .literal body closed

@[simp]
theorem span_lexeme (spelling : Spelling) : spelling.lexeme.span = spelling.bytes := by
  cases spelling with
  | string body closed =>
      cases closed <;> simp [lexeme, Lexeme.span, Lexeme.body, Lexeme.closing, bytes]
  | _ => simp [lexeme, Lexeme.span, Lexeme.body, Lexeme.closing, bytes]

theorem kind_lexeme {spelling : Spelling} (hvalid : spelling.Valid) :
    spelling.lexeme.kind = spelling.kind := by
  cases spelling with
  | keyword reserved =>
      simp [lexeme, Lexeme.kind, kind, Kind.ofWord, Keyword.ofWord?_word]
  | identifier name =>
      have hword := Keyword.ofWord?_eq_none_iff.mpr fun reserved => (hvalid.2 reserved).symm
      simp [lexeme, Lexeme.kind, kind, Kind.ofWord, hword]
  | mark sign => simp [lexeme, Lexeme.kind, kind, Kind.ofMark, Mark.ofByte?_byte]
  | illegal byte =>
      have hmark := Mark.ofByte?_eq_none_iff.mpr fun sign => (hvalid.2.2.2 sign).symm
      simp [lexeme, Lexeme.kind, kind, Kind.ofMark, hmark]
  | number digits => rfl
  | string body closed => rfl

theorem text_lexeme (spelling : Spelling) (encoding : Decoder) :
    spelling.lexeme.text encoding = spelling.textBy encoding := by
  cases spelling <;> rfl

theorem textBy_eq {encoding : Decoder} {codec : Encoding}
    (hcodec : Encoding.find encoding.name = .ok codec) (spelling : Spelling) :
    spelling.textBy encoding = .ok (spelling.text codec) := by
  cases spelling with
  | string body closed => exact Decoder.decode_of_find hcodec body
  | _ => rfl

/-- No token but a string holds a blank. -/
theorem isBlank_of_mem {spelling : Spelling} (hvalid : spelling.Valid)
    (hkind : spelling.kind ≠ .string) : ∀ byte ∈ spelling.bytes, byte.isBlank = false := by
  intro byte hbyte
  cases spelling with
  | keyword reserved =>
      exact Byte.isBlank_of_continuesWord (reserved.isWord_bytes.continuesWord_of_mem byte hbyte)
  | identifier name =>
      exact Byte.isBlank_of_continuesWord (hvalid.1.continuesWord_of_mem byte hbyte)
  | number digits =>
      exact Byte.isBlank_of_continuesWord
        (Byte.continuesWord_of_isDigit (IsNumber.isDigit_of_mem hvalid byte hbyte))
  | mark sign =>
      rw [List.mem_singleton.mp hbyte]
      exact sign.byte_class.1
  | illegal other =>
      rw [List.mem_singleton.mp hbyte]
      exact hvalid.1
  | string body closed => exact absurd rfl hkind

/-! ## Reading a spelling back -/

theorem bytes_ne_nil {spelling : Spelling} (hvalid : spelling.Valid) : spelling.bytes ≠ [] := by
  cases spelling with
  | keyword reserved => cases reserved <;> decide
  | identifier name =>
      rintro rfl
      exact hvalid.1
  | number digits =>
      rintro rfl
      exact hvalid
  | _ => simp [bytes]

theorem read_word_append {name rest : List Byte} (hname : IsWord name)
    (hends : ∀ byte ∈ rest.head?, byte.continuesWord = false) :
    Lexeme.read (name ++ rest) = (.word name, rest) := by
  cases name with
  | nil => exact absurd hname id
  | cons first name =>
      obtain ⟨htake, hdrop⟩ := takeWhile_append_of_stop rest hname.2 hends
      simp [Lexeme.read, hname.1, htake, hdrop]

theorem read_number_append {digits rest : List Byte} (hdigits : IsNumber digits)
    (hends : digits ≠ [Byte.zero] → ∀ byte ∈ rest.head?, byte.isDigit = false) :
    Lexeme.read (digits ++ rest) = (.number digits, rest) := by
  cases digits with
  | nil => exact absurd hdigits id
  | cons first digits =>
      rcases hdigits with ⟨rfl, rfl⟩ | ⟨hzero, hfirst, hlater⟩
      · have hword : Byte.zero.startsWord = false := by decide
        simp [Lexeme.read, hword]
      · have hword := Byte.startsWord_of_isDigit hfirst
        obtain ⟨htake, hdrop⟩ := takeWhile_append_of_stop rest hlater (hends (by simp [hzero]))
        simp [Lexeme.read, hword, hzero, hfirst, htake, hdrop]

theorem read_literal_append {body rest : List Byte} (hbody : Byte.quote ∉ body) (closed : Bool)
    (hends : closed = false → rest = []) :
    Lexeme.read (Byte.quote :: body ++ (if closed then [Byte.quote] else []) ++ rest) =
      (.literal body closed, rest) := by
  have hbytes : ∀ byte ∈ body, (byte != Byte.quote) = true := fun byte hbyte =>
    bne_iff_ne.mpr (ne_of_mem_of_not_mem hbyte hbody)
  have hword : Byte.quote.startsWord = false := by decide
  have hzero : Byte.quote ≠ Byte.zero := by decide
  have hdigit : Byte.quote.isDigit = false := by decide
  cases closed with
  | false =>
      obtain rfl := hends rfl
      obtain ⟨htake, hdrop⟩ := takeWhile_append_of_stop [] hbytes (by simp)
      rw [List.append_nil] at htake hdrop
      simp [Lexeme.read, hword, hzero, hdigit, htake, hdrop]
  | true =>
      obtain ⟨htake, hdrop⟩ :=
        takeWhile_append_of_stop (Byte.quote :: rest) hbytes (by simp)
      simp [Lexeme.read, hword, hzero, hdigit, htake, hdrop]

theorem read_single {byte : Byte} (hword : byte.continuesWord = false) (hquote : byte ≠ Byte.quote)
    (rest : List Byte) : Lexeme.read (byte :: rest) = (.single byte, rest) := by
  simp only [Byte.continuesWord, Bool.or_eq_false_iff] at hword
  have hzero : byte ≠ Byte.zero := by
    rintro rfl
    exact absurd hword.2 (by decide)
  simp [Lexeme.read, hword.1, hword.2, hzero, hquote]

/-- A valid spelling is read back whole where it ends. -/
theorem read_append {spelling : Spelling} {rest : List Byte} (hvalid : spelling.Valid)
    (hends : spelling.EndsBefore rest) :
    Lexeme.read (spelling.bytes ++ rest) = (spelling.lexeme, rest) := by
  cases spelling with
  | keyword reserved => exact read_word_append reserved.isWord_bytes hends
  | identifier name => exact read_word_append hvalid.1 hends
  | number digits => exact read_number_append hvalid hends
  | mark sign => exact read_single sign.byte_class.2.1 sign.byte_class.2.2 rest
  | illegal byte => exact read_single hvalid.2.2.1 hvalid.2.1 rest
  | string body closed => exact read_literal_append hvalid closed hends

theorem front_append {spelling : Spelling} {rest : List Byte} (hvalid : spelling.Valid)
    (hends : spelling.EndsBefore rest) : Gap.front (spelling.bytes ++ rest) = .clear := by
  have hword {bytes : List Byte} (hbytes : IsWord bytes) : Gap.front (bytes ++ rest) = .clear := by
    obtain ⟨first, hhead, hfirst⟩ := hbytes.exists_first
    obtain ⟨later, rfl⟩ := List.head?_eq_some_iff.mp hhead
    exact Gap.front_of_continuesWord (Byte.continuesWord_of_startsWord hfirst) _
  cases spelling with
  | keyword reserved => exact hword reserved.isWord_bytes
  | identifier name => exact hword hvalid.1
  | number digits =>
      obtain ⟨first, hhead, hdigit⟩ := IsNumber.exists_first hvalid
      obtain ⟨later, rfl⟩ := List.head?_eq_some_iff.mp hhead
      exact Gap.front_of_continuesWord (Byte.continuesWord_of_isDigit hdigit) _
  | mark sign =>
      -- a slash is a mark only where no comment starts
      refine Gap.front_cons_eq_clear_iff.mpr ⟨sign.byte_class.1, fun hslash => hends ?_⟩
      exact Mark.byte_injective hslash
  | illegal byte =>
      exact Gap.front_cons_eq_clear_iff.mpr
        ⟨hvalid.1, fun hslash => absurd hslash (hvalid.2.2.2 .slash)⟩
  | string body closed =>
      refine Gap.front_cons_eq_clear_iff.mpr ⟨Byte.isBlank_quote, fun hslash => ?_⟩
      exact absurd hslash (by decide)

/-! ## What a text starts with -/

theorem exists_word {first : Byte} (rest : List Byte) (hfirst : first.startsWord = true) :
    ∃ (spelling : Spelling) (after : List Byte), spelling.Valid ∧ spelling.EndsBefore after ∧
      first :: rest = spelling.bytes ++ after := by
  -- the word is taken whole, so no byte after it goes on with it
  let name := first :: rest.takeWhile (·.continuesWord)
  have hname : IsWord name := ⟨hfirst, fun _ => List.mem_takeWhile_imp⟩
  have hends := head?_dropWhile (·.continuesWord) rest
  have hsplit : first :: rest = name ++ rest.dropWhile (·.continuesWord) := by
    simp [name, List.takeWhile_append_dropWhile]
  cases hkeyword : Keyword.ofWord? (latinText name) with
  | none =>
      have hother := Keyword.ofWord?_eq_none_iff.mp hkeyword
      exact ⟨.identifier name, _, ⟨hname, fun reserved => (hother reserved).symm⟩, hends, hsplit⟩
  | some reserved =>
      have hword : reserved.word = latinText name := by
        simpa using List.find?_some hkeyword
      have hbytes : reserved.bytes = name := by
        apply latinText_injective
        rw [Keyword.latinText_bytes, hword]
      exact ⟨.keyword reserved, _, trivial, hends, by rw [bytes, hbytes, ← hsplit]⟩

theorem exists_literal (rest : List Byte) :
    ∃ (spelling : Spelling) (after : List Byte), spelling.Valid ∧ spelling.EndsBefore after ∧
      Byte.quote :: rest = spelling.bytes ++ after := by
  by_cases hquote : Byte.quote ∈ rest
  · obtain ⟨body, after, rfl, hbody⟩ := List.eq_append_cons_of_mem hquote
    exact ⟨.string body true, after, hbody, by simp [EndsBefore], by simp [bytes]⟩
  · exact ⟨.string rest false, [], hquote, fun _ => rfl, by simp [bytes]⟩

theorem exists_single {byte : Byte} {rest : List Byte} (hclear : Gap.front (byte :: rest) = .clear)
    (hquote : byte ≠ Byte.quote) (hword : byte.continuesWord = false) :
    ∃ (spelling : Spelling) (after : List Byte), spelling.Valid ∧ spelling.EndsBefore after ∧
      byte :: rest = spelling.bytes ++ after := by
  obtain ⟨hblank, hslash⟩ := Gap.front_cons_eq_clear_iff.mp hclear
  cases hmark : Mark.ofByte? byte with
  | none =>
      have hother := Mark.ofByte?_eq_none_iff.mp hmark
      exact ⟨.illegal byte, rest, ⟨hblank, hquote, hword, fun sign => (hother sign).symm⟩, trivial,
        rfl⟩
  | some sign =>
      have hbyte : sign.byte = byte := by
        simpa using List.find?_some hmark
      refine ⟨.mark sign, rest, trivial, ?_, by rw [bytes, hbyte]; rfl⟩
      rintro rfl
      exact hslash hbyte.symm

/-- A text that starts with no gap starts with the valid spelling of a token that ends there. -/
theorem exists_of_front_eq_clear {text : List Byte} (htext : text ≠ [])
    (hclear : Gap.front text = .clear) :
    ∃ (spelling : Spelling) (rest : List Byte), spelling.Valid ∧ spelling.EndsBefore rest ∧
      text = spelling.bytes ++ rest := by
  cases text with
  | nil => exact absurd rfl htext
  | cons first rest =>
      by_cases hstart : first.startsWord = true
      · exact exists_word rest hstart
      by_cases hzero : first = Byte.zero
      · exact ⟨.number [first], rest, Or.inl ⟨hzero, rfl⟩, by simp [EndsBefore, hzero], rfl⟩
      by_cases hdigit : first.isDigit = true
      · refine ⟨.number (first :: rest.takeWhile (·.isDigit)), rest.dropWhile (·.isDigit),
          Or.inr ⟨hzero, hdigit, fun _ => List.mem_takeWhile_imp⟩, ?_, ?_⟩
        · exact fun _ => head?_dropWhile (·.isDigit) rest
        · simp [bytes, List.takeWhile_append_dropWhile]
      by_cases hquote : first = Byte.quote
      · subst hquote
        exact exists_literal rest
      · exact exists_single hclear hquote (by simp [Byte.continuesWord, hstart, hdigit])

end Spelling

end LetLang
