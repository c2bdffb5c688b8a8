import LetLang.Proofs.Draws

/-!
# Renderings of tokens

A rendering is a text cut into gaps and spelled tokens. Whether the cuts are where the scanner
makes them can be said of the bytes that follow each token, or of each two neighbours and the
gap between them; both ways are shown to be the same.
-/

namespace LetLang

/-- A text as gaps and tokens in turn. -/
inductive Rendering where
  | done (gap : List Byte)
  | token (gap : List Byte) (spelling : Spelling) (rest : Rendering)
  deriving DecidableEq, Repr

/-- Whether two tokens side by side would be read otherwise: a word with more of a word, a
number with more digits, and a slash with a byte that makes a comment of it. A zero goes with
no more digits. -/
def Spelling.Merges : Spelling → Spelling → Prop
  | .keyword _, right | .identifier _, right =>
      right.kind = .number ∨ right.kind = .identifier ∨ ∃ reserved, right.kind = .keyword reserved
  | .number digits, right => digits ≠ [Byte.zero] ∧ right.kind = .number
  | .mark .slash, right => right.kind = .mark .slash ∨ right.kind = .mark .asterisk
  | _, _ => False

/-- Whether a gap keeps a token apart from the next one, if there is one: tokens that would
merge have a gap between them, no gap goes on from a slash to a comment, and a literal
without its closing quote is the last of the text. -/
def Spelling.KeptApart (left : Spelling) (gap : List Byte) (right : Option Spelling) : Prop :=
  (gap = [] → ∀ next ∈ right, ¬ left.Merges next) ∧
    (left = .mark .slash → gap.head? ≠ some Byte.slash) ∧
    ∀ body, left = .string body false → gap = [] ∧ right = none

namespace Spelling

/-- The first byte of a token tells what the token is. -/
theorem exists_first {spelling : Spelling} (hvalid : spelling.Valid) :
    ∃ first, spelling.bytes.head? = some first ∧
      (first.continuesWord = true ↔ spelling.kind = .number ∨ spelling.kind = .identifier ∨
        ∃ reserved, spelling.kind = .keyword reserved) ∧
      (first.isDigit = true ↔ spelling.kind = .number) ∧
      ∀ sign : Mark, first = sign.byte ↔ spelling.kind = .mark sign := by
  have hword {word : List Byte} (hword : IsWord word) :
      ∃ first, word.head? = some first ∧ first.continuesWord = true ∧ first.isDigit = false ∧
        ∀ sign : Mark, first ≠ sign.byte := by
    obtain ⟨first, hhead, hfirst⟩ := hword.exists_first
    have hcontinues := Byte.continuesWord_of_startsWord hfirst
    exact ⟨first, hhead, hcontinues, Byte.isDigit_of_startsWord hfirst,
      Mark.ne_byte_of_continuesWord hcontinues⟩
  cases spelling with
  | keyword reserved =>
      obtain ⟨first, hhead, hcontinues, hdigit, hmark⟩ := hword reserved.isWord_bytes
      exact ⟨first, hhead, by simp [hcontinues, kind], by simp [hdigit, kind],
        by simp [hmark, kind]⟩
  | identifier name =>
      obtain ⟨first, hhead, hcontinues, hdigit, hmark⟩ := hword hvalid.1
      exact ⟨first, hhead, by simp [hcontinues, kind], by simp [hdigit, kind],
        by simp [hmark, kind]⟩
  | number digits =>
      obtain ⟨first, hhead, hdigit⟩ := IsNumber.exists_first hvalid
      have hcontinues := Byte.continuesWord_of_isDigit hdigit
      exact ⟨first, hhead, by simp [hcontinues, kind], by simp [hdigit, kind],
        by simp [Mark.ne_byte_of_continuesWord hcontinues, kind]⟩
  | mark sign =>
      have hcontinues := sign.byte_class.2.1
      have hdigit := Byte.isDigit_of_not_continuesWord hcontinues
      refine ⟨sign.byte, rfl, by simp [hcontinues, kind], by simp [hdigit, kind], fun other => ?_⟩
      simp only [kind, Kind.mark.injEq]
      exact ⟨Mark.byte_injective, congrArg Mark.byte⟩
  | illegal byte =>
      have hdigit := Byte.isDigit_of_not_continuesWord hvalid.2.2.1
      exact ⟨byte, rfl, by simp [hvalid.2.2.1, kind], by simp [hdigit, kind],
        by simp [hvalid.2.2.2, kind]⟩
  | string body closed =>
      have hcontinues : Byte.quote.continuesWord = false := by decide
      have hdigit : Byte.quote.isDigit = false := by decide
      exact ⟨Byte.quote, rfl, by simp [hcontinues, kind], by simp [hdigit, kind],
        by simp [fun sign : Mark => sign.byte_class.2.2.symm, kind]⟩

end Spelling

namespace Spelling

/-- Next to a token or the end: a token ends before the bytes that follow it exactly where it
is kept apart from the next token. -/
theorem endsBefore_iff_keptApart_of_nil {left : Spelling} {right : Option Spelling}
    {following : List Byte} (hnone : right = none → following = [])
    (hsome : ∀ next ∈ right, next.Valid ∧ next.bytes <+: following) :
    left.EndsBefore following ↔ left.KeptApart [] right := by
  cases right with
  | none =>
      obtain rfl := hnone rfl
      cases left <;> simp [EndsBefore, KeptApart]
  | some next =>
      obtain ⟨hvalid, after, rfl⟩ := hsome next rfl
      obtain ⟨first, hhead, hcontinues, hdigit, hmark⟩ := exists_first hvalid
      have hfollowing : (next.bytes ++ after).head? = some first := by
        rw [List.head?_append, hhead, Option.some_or]
      have hnil : next.bytes ++ after ≠ [] := by simp [bytes_ne_nil hvalid]
      have hword : first.continuesWord = false ↔ ¬ (next.kind = .number ∨
          next.kind = .identifier ∨ ∃ reserved, next.kind = .keyword reserved) := by
        rw [← hcontinues, Bool.not_eq_true]
      have hnumber : first.isDigit = false ↔ next.kind ≠ .number := by
        rw [Ne, ← hdigit, Bool.not_eq_true]
      cases left with
      | mark sign =>
          cases sign <;> simp [EndsBefore, KeptApart, Merges, hfollowing, ← hmark, Mark.byte,
            Byte.slash, Byte.star]
      | _ => simp [EndsBefore, KeptApart, Merges, hfollowing, hword, hnumber, hnil]

theorem endsBefore_iff_keptApart_of_cons {left : Spelling} {right : Option Spelling} {byte : Byte}
    {gap following : List Byte} (hbyte : byte.isBlank = true ∨ byte = Byte.slash) :
    left.EndsBefore (byte :: following) ↔ left.KeptApart (byte :: gap) right := by
  have hword := Gap.not_continuesWord_of_head hbyte
  have hdigit := Byte.isDigit_of_not_continuesWord hword
  have hstar : byte ≠ Byte.star := by
    rintro rfl
    rcases hbyte with hblank | hslash
    · exact absurd hblank (by decide)
    · exact absurd hslash (by decide)
  cases left with
  | mark sign => simp [EndsBefore, KeptApart, hstar]
  | _ => simp [EndsBefore, KeptApart, hword, hdigit]

end Spelling

namespace Rendering

def bytes : Rendering → List Byte
  | .done gap => gap
  | .token gap spelling rest => gap ++ (spelling.bytes ++ rest.bytes)

def spellings : Rendering → List Spelling
  | .done _ => []
  | .token _ spelling rest => spelling :: rest.spellings

/-- The bytes before the first token, or all of them if there is none. -/
def lead : Rendering → List Byte
  | .done gap => gap
  | .token gap _ _ => gap

/-- The bytes after the last token, or all of them if there is none. -/
def remainder : Rendering → List Byte
  | .done gap => gap
  | .token _ _ rest => rest.remainder

/-- Whether every token is what it is called and kept apart from its neighbours, and what
stands between them is gaps. The last gap may end in a line comment without its line feed. -/
def Admissible : Rendering → Prop
  | .done gap => Gap.IsFinalGap gap
  | .token gap spelling rest =>
      Gap.IsGap gap ∧ spelling.Valid ∧ spelling.KeptApart rest.lead rest.spellings.head? ∧
        rest.Admissible

/-- Whether every token is what it is called and ends where the bytes after it begin, and what
stands before each is a gap. Nothing is said about the bytes after the last. -/
def Separate : Rendering → Prop
  | .done _ => True
  | .token gap spelling rest =>
      Gap.IsGap gap ∧ spelling.Valid ∧ spelling.EndsBefore rest.bytes ∧ rest.Separate

theorem bytes_eq_lead_append (rendering : Rendering) :
    ∃ following, rendering.bytes = rendering.lead ++ following ∧
      (rendering.spellings.head? = none → following = []) ∧
      ∀ next ∈ rendering.spellings.head?, next.bytes <+: following := by
  cases rendering with
  | done gap => exact ⟨[], by simp [bytes, lead], fun _ => rfl, by simp [spellings]⟩
  | token gap spelling rest =>
      refine ⟨spelling.bytes ++ rest.bytes, rfl, by simp [spellings], ?_⟩
      rintro next ⟨⟩
      exact List.prefix_append _ _

theorem Admissible.isFinalGap_lead {rendering : Rendering} (hadmissible : rendering.Admissible) :
    Gap.IsFinalGap rendering.lead := by
  cases rendering with
  | done gap => exact hadmissible
  | token gap spelling rest => exact Or.inl hadmissible.1

theorem Admissible.valid_head {rendering : Rendering} (hadmissible : rendering.Admissible) :
    ∀ next ∈ rendering.spellings.head?, next.Valid := by
  cases rendering with
  | done gap => simp [spellings]
  | token gap spelling rest =>
      rintro next ⟨⟩
      exact hadmissible.2.1

theorem endsBefore_iff_keptApart {rest : Rendering} (hrest : rest.Admissible) (left : Spelling) :
    left.EndsBefore rest.bytes ↔ left.KeptApart rest.lead rest.spellings.head? := by
  obtain ⟨following, hbytes, hnone, hsome⟩ := rest.bytes_eq_lead_append
  rw [hbytes]
  -- only a gap that is empty lets the next token stand at the end of this one
  cases hlead : rest.lead with
  | nil =>
      exact Spelling.endsBefore_iff_keptApart_of_nil hnone
        fun next hnext => ⟨hrest.valid_head next hnext, hsome next hnext⟩
  | cons byte gap =>
      have hgap := hrest.isFinalGap_lead
      rw [hlead] at hgap
      exact Spelling.endsBefore_iff_keptApart_of_cons (Gap.head_of_isFinalGap hgap)

/-- A rendering is admissible where every token ends before the bytes that follow it and the
last bytes are a final gap. -/
theorem admissible_iff (rendering : Rendering) :
    rendering.Admissible ↔ rendering.Separate ∧ Gap.IsFinalGap rendering.remainder := by
  induction rendering with
  | done gap => simp [Admissible, Separate, remainder]
  | token gap spelling rest ih =>
      simp only [Admissible, Separate, remainder]
      constructor
      · rintro ⟨hgap, hvalid, hapart, hrest⟩
        obtain ⟨hseparate, hfinal⟩ := ih.mp hrest
        exact ⟨⟨hgap, hvalid, (endsBefore_iff_keptApart hrest spelling).mpr hapart, hseparate⟩,
          hfinal⟩
      · rintro ⟨⟨hgap, hvalid, hends, hseparate⟩, hfinal⟩
        have hrest := ih.mpr ⟨hseparate, hfinal⟩
        exact ⟨hgap, hvalid, (endsBefore_iff_keptApart hrest spelling).mp hends, hrest⟩

def taken : Rendering → List Byte
  | .done _ => []
  | .token gap spelling rest => gap ++ spelling.bytes ++ rest.taken

theorem taken_append_remainder (rendering : Rendering) :
    rendering.taken ++ rendering.remainder = rendering.bytes := by
  induction rendering with
  | done gap => rfl
  | token gap spelling rest ih => simp [taken, remainder, bytes, ih]

/-- The tokens of a rendering that starts at a position, each with the location where it
starts and with the position where it ends. -/
def placed (source : Source) (codec : Encoding) (position : Position) :
    Rendering → List (Token × Position)
  | .done _ => []
  | .token gap spelling rest =>
      (⟨spelling.kind, spelling.text codec, some (source.locate (position.through gap))⟩,
        position.through (gap ++ spelling.bytes)) ::
        rest.placed source codec (position.through (gap ++ spelling.bytes))

def keys (codec : Encoding) (rendering : Rendering) : List (Kind × String) :=
  rendering.spellings.map fun spelling => (spelling.kind, spelling.text codec)

/-- Every text is tokens, each with a gap before it, and then the end or a block comment that
never closes. -/
theorem exists_separate (text : List Byte) :
    ∃ rendering : Rendering, rendering.Separate ∧ rendering.bytes = text ∧
      (Gap.IsFinalGap rendering.remainder ∨ Gap.EndsUnclosed rendering.remainder) := by
  -- by the length of what is left after the first token
  rcases Scanner.rest_cases text with ⟨gap, spelling, rest, hgap, hvalid, hends, htext⟩ | hrest
  · have hlength : rest.length < text.length := by
      have hbytes := List.length_pos_iff.mpr (Spelling.bytes_ne_nil hvalid)
      simp only [htext, List.length_append]
      omega
    obtain ⟨rendering, hseparate, rfl, hremainder⟩ := exists_separate rest
    exact ⟨.token gap spelling rendering, ⟨hgap, hvalid, hends, hseparate⟩, htext.symm,
      hremainder⟩
  · exact ⟨.done text, trivial, rfl, hrest⟩
termination_by text.length

theorem map_key_placed (rendering : Rendering) (source : Source) (codec : Encoding)
    (position : Position) :
    (rendering.placed source codec position).map (·.1.key) = rendering.keys codec := by
  induction rendering generalizing position with
  | done gap => rfl
  | token gap spelling rest ih =>
      rw [placed, List.map_cons, ih]
      rfl

end Rendering

namespace Scanner

/-! ## Drawing a rendering -/

/-- The tokens of a rendering are drawn one after the other. -/
theorem draws_of_separate (scanner : Scanner) {codec : Encoding} {rendering : Rendering}
    (hcodec : Encoding.find scanner.encoding.name = .ok codec) (hseparate : rendering.Separate)
    (hrest : scanner.rest = rendering.bytes) :
    scanner.Draws ((rendering.placed scanner.source codec scanner.position).map Prod.fst)
      (scanner.move rendering.taken rendering.remainder) := by
  induction rendering generalizing scanner with
  | done gap =>
      rw [Rendering.bytes] at hrest
      rw [Rendering.taken, Rendering.remainder, ← hrest, move_nil]
      exact .nil scanner
  | token gap spelling rest ih =>
      obtain ⟨hgap, hvalid, hends, hseparate⟩ := hseparate
      have hdraw := next_of_spelling hgap hvalid hends hrest
      rw [Spelling.textBy_eq hcodec] at hdraw
      have hlater := ih (scanner.move (gap ++ spelling.bytes) rest.bytes) hcodec hseparate rfl
      rw [move_move] at hlater
      exact .cons hdraw hlater

/-- Tokens drawn before the end of the input are a rendering of the bytes they were drawn
from. -/
theorem Draws.exists_rendering {codec : Encoding} {scanner after : Scanner} {tokens : List Token}
    (hdraws : scanner.Draws tokens after) (hcodec : Encoding.find scanner.encoding.name = .ok codec)
    (hkinds : ∀ token ∈ tokens, token.kind ≠ .finish) :
    ∃ rendering : Rendering, rendering.Separate ∧ scanner.rest = rendering.bytes ∧
      tokens = (rendering.placed scanner.source codec scanner.position).map Prod.fst ∧
      after = scanner.move rendering.taken rendering.remainder := by
  induction hdraws with
  | nil scanner => exact ⟨.done scanner.rest, trivial, rfl, rfl, rfl⟩
  | @cons scanner middle after token tokens hdraw _ ih =>
      obtain ⟨htoken, hkinds⟩ := List.forall_mem_cons.mp hkinds
      rcases next_ok_cases hdraw with
        ⟨gap, spelling, rest, hgap, hvalid, hends, hrest, htext, hkind, hlocation, rfl⟩ |
        ⟨_, hfinish, _⟩
      · obtain ⟨rendering, hseparate, hbytes, rfl, rfl⟩ := ih hcodec hkinds
        obtain rfl : rest = rendering.bytes := hbytes
        refine ⟨.token gap spelling rendering, ⟨hgap, hvalid, hends, hseparate⟩, hrest, ?_, ?_⟩
        · rw [Spelling.textBy_eq hcodec, Except.ok.injEq] at htext
          obtain ⟨kind, text, location⟩ := token
          obtain rfl : location = _ := hlocation
          obtain rfl : kind = _ := hkind
          obtain rfl : spelling.text codec = text := htext
          rfl
        · rw [move_move]
          rfl
      · exact absurd hfinish htoken

end Scanner

end LetLang
