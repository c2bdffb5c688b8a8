import LetLang.Proofs.Comparison
import Mathlib.Data.List.Forall2

/-!
# What an encoding has influence on

The name of an encoding is looked up when the body of a string literal is decoded, and nowhere else.
Two encodings of text lead to the same draws but for the texts of strings, and as no statement has a
use for a string, to the same instructions and faults. A name that no text can be decoded by makes
the first literal fail that is not empty, and has no influence before.
-/

namespace LetLang

/-- Whether a decoder has a text for no bytes but none at all. -/
def Decoder.Refuses (decoder : Decoder) (cause : Encoding.Fault) : Prop :=
  ∀ body, body ≠ [] → decoder.decode body = .error cause

/-- A name of the table that no text can be decoded by refuses all bytes. -/
theorem Decoder.refuses_of_find {name : String} {cause : Encoding.Fault}
    (hname : Encoding.find name = .error cause) : (ofName name).Refuses cause := by
  intro body hbody
  rw [decode_ofName, Encoding.decodeNamed, hname, if_neg (by simpa using hbody)]
  rfl

/-! ## Draws under two encodings -/

/-- Whether tokens are the same but for the text of a string. -/
structure Token.SameButString (token other : Token) : Prop where
  kind : token.kind = other.kind
  location : token.location = other.location
  text : token.kind ≠ .string → token.text = other.text

/-- Whether draws hand out tokens that are the same but for the text of a string, or fail with the
same fault. -/
inductive SameDraw : Except Fault Token → Except Fault Token → Prop where
  | token {token other : Token} (hsame : token.SameButString other) :
      SameDraw (.ok token) (.ok other)
  | fault (fault : Fault) : SameDraw (.error fault) (.error fault)

namespace Scanner

/-- Whether two scanners stand at the same place of one source. -/
structure Beside (left right : Scanner) : Prop where
  source : left.source = right.source
  position : left.position = right.position
  rest : left.rest = right.rest

/-- Whether the next token is a string literal that is not empty, with its closing quote or at the
end of the text. -/
def MeetsLiteral (scanner : Scanner) (gap body : List Byte) (closed : Bool) (rest : List Byte) :
    Prop :=
  Gap.IsGap gap ∧ (Spelling.string body closed).Valid ∧
    (Spelling.string body closed).EndsBefore rest ∧ body ≠ [] ∧
    scanner.rest = gap ++ ((Spelling.string body closed).bytes ++ rest)

theorem Beside.move {left right : Scanner} (hbeside : left.Beside right) (span rest : List Byte) :
    (left.move span rest).Beside (right.move span rest) where
  source := hbeside.source
  position := congrArg (Position.through · span) hbeside.position
  rest := rfl

theorem Beside.locate {left right : Scanner} (hbeside : left.Beside right) (span : List Byte) :
    left.source.locate (left.position.through span) =
      right.source.locate (right.position.through span) := by
  rw [hbeside.source, hbeside.position]

theorem Beside.meetsLiteral {left right : Scanner} (hbeside : left.Beside right)
    {gap body rest : List Byte} {closed : Bool} (hmeets : left.MeetsLiteral gap body closed rest) :
    right.MeetsLiteral gap body closed rest := by
  obtain ⟨hgap, hvalid, hends, hbody, hrest⟩ := hmeets
  exact ⟨hgap, hvalid, hends, hbody, hbeside.rest.symm.trans hrest⟩

theorem MeetsLiteral.body_ne_nil {scanner : Scanner} {gap body rest : List Byte} {closed : Bool}
    (hmeets : scanner.MeetsLiteral gap body closed rest) : body ≠ [] := hmeets.2.2.2.1

theorem Beside.unclosedComment {left right : Scanner} (hbeside : left.Beside right)
    (gap comment : List Byte) :
    (left.move gap comment).unclosedComment = (right.move gap comment).unclosedComment := by
  simp only [Scanner.unclosedComment, Scanner.move, hbeside.source, hbeside.position]

end Scanner

/-- Two scanners at one place, each with an encoding of text. -/
def Comparison.decoded : Comparison where
  related left right := left.Beside right ∧
    (∃ codec, Encoding.find left.encoding.name = .ok codec) ∧
    ∃ codec, Encoding.find right.encoding.name = .ok codec
  alike := Token.SameButString
  same fault other := fault = other
  parted _ _ _ := False

/-- Two scanners at one place, the second with a decoder that has no text for any bytes. -/
def Comparison.undecoded (cause : Encoding.Fault) : Comparison where
  related left right := left.Beside right ∧
    (∃ codec, Encoding.find left.encoding.name = .ok codec) ∧
    right.encoding.Refuses cause
  alike token other := token = other
  same fault other := fault = other
  parted before token fault := (∃ gap body closed rest, before.MeetsLiteral gap body closed rest) ∧
    token.kind = .string ∧ fault = .encoding cause

namespace Spelling

/-- Only the text of a string depends on the encoding. -/
theorem text_eq_of_kind {spelling : Spelling} (hkind : spelling.kind ≠ .string)
    (left right : Encoding) : spelling.text left = spelling.text right := by
  cases spelling with
  | string body closed => exact absurd rfl hkind
  | _ => rfl

/-- Under a decoder of no use all tokens have their text but a string that is not empty. -/
theorem textBy_cases {decoder : Decoder} {cause : Encoding.Fault}
    (hrefuses : decoder.Refuses cause) (other : Decoder) (spelling : Spelling) :
    spelling.textBy decoder = spelling.textBy other ∨
      spelling.textBy decoder = .error cause ∧
        ∃ body closed, spelling = .string body closed ∧ body ≠ [] := by
  cases spelling with
  | string body closed =>
      cases body with
      | nil =>
          rw [textBy, textBy, Decoder.decode_nil, Decoder.decode_nil]
          exact Or.inl rfl
      | cons byte body =>
          exact Or.inr ⟨hrefuses _ (by simp), byte :: body, closed, rfl, by simp⟩
  | _ => exact Or.inl rfl

end Spelling

namespace Comparison

theorem lawful_decoded : decoded.Lawful where
  draw := by
    rintro left right ⟨hbeside, ⟨codec, hcodec⟩, other, hother⟩
    rcases Scanner.next_cases_of_rest_eq hbeside.rest with
      ⟨gap, spelling, rest, hgap, hvalid, hends, htext, hrest⟩ | ⟨hleft, hright⟩ |
      ⟨gap, comment, hleft, hright⟩
    · have hleft := Scanner.next_of_spelling hgap hvalid hends htext
      have hright := Scanner.next_of_spelling hgap hvalid hends hrest
      rw [Spelling.textBy_eq hcodec] at hleft
      rw [Spelling.textBy_eq hother] at hright
      refine .token _ _ _ _ hleft hright ⟨hbeside.move _ _, ⟨codec, hcodec⟩, other, hother⟩ ?_
      exact ⟨rfl, congrArg some (hbeside.locate gap),
        fun hkind => Spelling.text_eq_of_kind hkind codec other⟩
    · refine .token _ _ _ _ hleft hright ⟨hbeside.move _ _, ⟨codec, hcodec⟩, other, hother⟩ ?_
      exact ⟨rfl, congrArg some (hbeside.locate left.rest), fun _ => rfl⟩
    · refine .fault _ _ _ _ hleft hright ⟨hbeside.move _ _, ⟨codec, hcodec⟩, other, hother⟩ ?_
      exact congrArg Fault.diagnostic (hbeside.unclosedComment gap comment)
  kind halike := halike.kind
  text halike := halike.text
  string := False.elim

theorem lawful_undecoded (cause : Encoding.Fault) : (undecoded cause).Lawful where
  draw := by
    rintro left right ⟨hbeside, ⟨codec, hcodec⟩, hcause⟩
    rcases Scanner.next_cases_of_rest_eq hbeside.rest with
      ⟨gap, spelling, rest, hgap, hvalid, hends, htext, hrest⟩ | ⟨hleft, hright⟩ |
      ⟨gap, comment, hleft, hright⟩
    · have hleft := Scanner.next_of_spelling hgap hvalid hends htext
      have hright := Scanner.next_of_spelling hgap hvalid hends hrest
      have hdecoded := Spelling.textBy_eq hcodec spelling
      rw [hdecoded] at hleft
      rcases Spelling.textBy_cases hcause left.encoding spelling with hsame |
        ⟨hfails, body, closed, rfl, hbody⟩
      · rw [hsame, hdecoded, ← hbeside.locate gap] at hright
        exact .token _ _ _ _ hleft hright ⟨hbeside.move _ _, ⟨codec, hcodec⟩, hcause⟩ rfl
      · rw [hfails] at hright
        exact .parted _ _ _ _ hleft hright
          ⟨⟨gap, body, closed, rest, hgap, hvalid, hends, hbody, htext⟩, rfl, rfl⟩
    · rw [← hbeside.locate left.rest] at hright
      exact .token _ _ _ _ hleft hright ⟨hbeside.move _ _, ⟨codec, hcodec⟩, hcause⟩ rfl
    · rw [← hbeside.unclosedComment gap comment] at hright
      exact .fault _ _ _ _ hleft hright ⟨hbeside.move _ _, ⟨codec, hcodec⟩, hcause⟩ rfl
  kind := by
    rintro token other rfl
    rfl
  text := by
    rintro token other rfl _
    rfl
  string hparted := hparted.2.1

end Comparison

/-! ## Compilations under two encodings -/

/-- Whether compilations are the same but for the texts of strings. Only the text that is reported
of a refused string may differ. -/
inductive Compilation.SameButString (left right : Compilation) : Prop where
  | accepted (first second : Result) (hleft : left.outcome = .ok first)
      (hright : right.outcome = .ok second) (hfile : first.file = second.file)
      (hinstructions : first.instructions = second.instructions)
      (htokens : List.Forall₂ Token.SameButString first.tokens second.tokens)
  | failed (fault : Fault) (hleft : left.outcome = .error fault)
      (hright : right.outcome = .error fault)
  | refused (first second : Token) (expected : Option String) (location : Option Location)
      (quoted : Option String) (hstring : first.kind = .string)
      (hlast : left.tokens.getLast? = some first) (hother : right.tokens.getLast? = some second)
      (hleft : left.outcome =
        .error (.diagnostic ⟨.unexpectedToken first.text expected, location, quoted⟩))
      (hright : right.outcome =
        .error (.diagnostic ⟨.unexpectedToken second.text expected, location, quoted⟩))

theorem Comparison.Compiled.sameButString {left right : String} {trace : Bool} {source : Source}
    (hcompiled : decoded.Compiled ⟨left, trace⟩ ⟨right, trace⟩ source source) :
    (compile ⟨left, trace⟩ source).SameButString (compile ⟨right, trace⟩ source) := by
  cases hcompiled with
  | accepted lines hleft hright htokens =>
      refine .accepted _ _ hleft hright rfl rfl ?_
      cases trace with
      | false => exact .nil
      | true => exact htokens
  | refused first second needed hlast hother halike hleft hright =>
      by_cases hstring : first.kind = .string
      · have hlocation := halike.location
        rw [Statement.unexpected, ← hlocation] at hright
        exact .refused first second _ _ _ hstring hlast hother hleft hright
      · rw [Statement.unexpected, ← halike.location, ← halike.text hstring] at hright
        exact .failed _ hleft hright
  | failed fault other hsame hleft hright =>
      obtain rfl : fault = other := hsame
      exact .failed fault hleft hright
  | parted _ _ _ _ _ _ _ hparted => exact hparted.elim

/-- The fault of a name that is of no use names it. -/
theorem Encoding.exists_name_of_find {name : String} {cause : Encoding.Fault}
    (hname : Encoding.find name = .error cause) :
    ∃ front back, cause.message = front ++ name ++ back := by
  cases hmeaning : named name with
  | text encoding => simp [find, hmeaning] at hname
  | transform =>
      simp only [find, hmeaning, Except.error.injEq] at hname
      subst hname
      exact ⟨"'", "' is not a text encoding; use codecs.decode() to handle arbitrary codecs", rfl⟩
  | refusing reason =>
      simp only [find, hmeaning, Except.error.injEq] at hname
      subst hname
      exact ⟨"decoding with '", "' codec failed (" ++ reason ++ ")", rfl⟩
  | unknown =>
      simp only [find, hmeaning, Except.error.injEq] at hname
      subst hname
      exact ⟨"unknown encoding: ", "", String.append_empty.symm⟩

/-- Under an encoding of text a literal is drawn as a string. -/
theorem Scanner.exists_string_of_meetsLiteral {scanner : Scanner} {codec : Encoding}
    {gap body rest : List Byte} {closed : Bool}
    (hcodec : Encoding.find scanner.encoding.name = .ok codec)
    (hmeets : scanner.MeetsLiteral gap body closed rest) :
    ∃ location, scanner.next.2 = .ok ⟨.string, codec.decode body, location⟩ := by
  obtain ⟨hgap, hvalid, hends, _, hrest⟩ := hmeets
  rw [next_of_spelling hgap hvalid hends hrest, Spelling.textBy_eq hcodec]
  exact ⟨_, rfl⟩

/-- A literal that has no text stops a scanner at its closing quote. -/
theorem Scanner.next_of_meetsLiteral {scanner : Scanner} {cause : Encoding.Fault}
    {gap body rest : List Byte} {closed : Bool}
    (hcause : scanner.encoding.decode body = .error cause)
    (hmeets : scanner.MeetsLiteral gap body closed rest) :
    scanner.next = (scanner.move (gap ++ Byte.quote :: body)
      ((if closed then [Byte.quote] else []) ++ rest), .error (.encoding cause)) := by
  obtain ⟨hgap, hvalid, hends, _, hrest⟩ := hmeets
  have htext : (Spelling.string body closed).textBy scanner.encoding = .error cause := hcause
  rw [next_of_spelling hgap hvalid hends hrest, htext]
  cases closed <;> rfl

section

variable {source : Source} {first second : String} {codec : Encoding}

/-- Under two encodings of text draw by draw is the same but for the texts of strings. -/
theorem Scanner.sameDraw_afterDraws {other : Encoding} (hcodec : Encoding.find first = .ok codec)
    (hother : Encoding.find second = .ok other) (count : Nat) :
    ((ofSource source first).afterDraws count).position =
        ((ofSource source second).afterDraws count).position ∧
      SameDraw ((ofSource source first).afterDraws count).next.2
        ((ofSource source second).afterDraws count).next.2 := by
  have hstart : Comparison.decoded.related (ofSource source first) (ofSource source second) :=
    ⟨⟨rfl, rfl, rfl⟩, ⟨codec, hcodec⟩, other, hother⟩
  have hrelated : Comparison.decoded.related ((ofSource source first).afterDraws count)
      ((ofSource source second).afterDraws count) :=
    Comparison.lawful_decoded.related_afterDraws hstart fun _ _ _ _ hparted => hparted
  refine ⟨hrelated.1.position, ?_⟩
  cases Comparison.lawful_decoded.draw hrelated with
  | token _ _ _ _ hleft hright _ halike =>
      rw [hleft, hright]
      exact .token halike
  | fault _ _ fault _ hleft hright _ hsame =>
      rw [hleft, hright, ← hsame]
      exact .fault fault
  | parted _ _ _ _ _ _ hparted => exact hparted.elim

/-- Under a name of no use draws are those under an encoding of text, up to the first literal that
is not empty. -/
theorem Scanner.draw_undecoded {cause : Encoding.Fault} (hcodec : Encoding.find first = .ok codec)
    (hcause : Encoding.find second = .error cause) {count : Nat}
    (hunmet : ∀ earlier < count, ∀ gap body closed rest,
      ¬ ((ofSource source first).afterDraws earlier).MeetsLiteral gap body closed rest) :
    ((ofSource source first).afterDraws count).Beside
        ((ofSource source second).afterDraws count) ∧
      ((ofSource source second).afterDraws count).encoding.Refuses cause ∧
      ((∀ gap body closed rest,
          ¬ ((ofSource source first).afterDraws count).MeetsLiteral gap body closed rest) →
        ((ofSource source first).afterDraws count).next.2 =
          ((ofSource source second).afterDraws count).next.2) := by
  have hstart : (Comparison.undecoded cause).related (ofSource source first)
      (ofSource source second) :=
    ⟨⟨rfl, rfl, rfl⟩, ⟨codec, hcodec⟩, Decoder.refuses_of_find hcause⟩
  obtain ⟨hbeside, hfirst, hsecond⟩ :
      (Comparison.undecoded cause).related ((ofSource source first).afterDraws count)
        ((ofSource source second).afterDraws count) :=
    (Comparison.lawful_undecoded cause).related_afterDraws hstart
      fun earlier hearlier _ _ ⟨⟨gap, body, closed, rest, hmeets⟩, _⟩ =>
        hunmet earlier hearlier gap body closed rest hmeets
  refine ⟨hbeside, hsecond, fun hplain => ?_⟩
  cases (Comparison.lawful_undecoded cause).draw ⟨hbeside, hfirst, hsecond⟩ with
  | token _ _ token other hleft hright _ halike =>
      obtain rfl : token = other := halike
      rw [hleft, hright]
  | fault _ _ fault other hleft hright _ hsame =>
      obtain rfl : fault = other := hsame
      rw [hleft, hright]
  | parted _ _ _ _ _ _ hparted =>
      obtain ⟨⟨gap, body, closed, rest, hmeets⟩, _⟩ := hparted
      exact absurd hmeets (hplain gap body closed rest)

/-- Under a name of no use a compilation is the same or stops at the last token that is drawn under
an encoding of text. -/
theorem Comparison.Compiled.cases_undecoded {cause : Encoding.Fault} {trace : Bool}
    (hcompiled : (undecoded cause).Compiled ⟨first, trace⟩ ⟨second, trace⟩ source source) :
    (compile ⟨first, trace⟩ source).outcome = (compile ⟨second, trace⟩ source).outcome ∨
      (compile ⟨second, trace⟩ source).outcome = .error (.encoding cause) ∧
      ∃ tokens before after token gap body closed rest,
        (compile ⟨first, trace⟩ source).tokens = tokens ++ [token] ∧
        (Scanner.ofSource source first).Draws tokens before ∧
        before.next = (after, .ok token) ∧ token.kind = .string ∧
        before.MeetsLiteral gap body closed rest := by
  cases hcompiled with
  | accepted lines hleft hright htokens =>
      have hsame :
          (compile ⟨first, trace⟩ source).tokens = (compile ⟨second, trace⟩ source).tokens :=
        List.forall₂_eq_eq_eq ▸ htokens
      left
      rw [hleft, hright, hsame]
  | refused left right needed _ _ halike hleft hright =>
      obtain rfl : left = right := halike
      exact Or.inl (hleft.trans hright.symm)
  | failed fault other hsame hleft hright =>
      obtain rfl : fault = other := hsame
      exact Or.inl (hleft.trans hright.symm)
  | parted tokens before after token fault hdraws hdraw hparted htokens hright =>
      obtain ⟨⟨gap, body, closed, rest, hmeets⟩, hkind, rfl⟩ := hparted
      exact Or.inr ⟨hright, tokens, before, after, token, gap, body, closed, rest, htokens, hdraws,
        hdraw, hkind, hmeets⟩

end

/-- **The encoding has influence on string literals only.** Under two encodings of text the draws
from a source are the same, step by step and failed ones among them, but for the texts of strings.
Compilations give the same lines or fail in the same way; only what is reported of a refused string
may differ. Under a name that no text can be decoded by, draws are the same up to the first literal
that is not empty, where the draw fails, names the encoding, and stops at the closing quote or the
end of the text. A compilation is the same, or it stops there. -/
theorem compile_encodings (source : Source) {first second : String} {codec : Encoding}
    (hcodec : Encoding.find first = .ok codec) (trace : Bool) :
    let left := Scanner.ofSource source first
    let right := Scanner.ofSource source second
    (∀ other, Encoding.find second = .ok other →
      (∀ count, (left.afterDraws count).position = (right.afterDraws count).position ∧
        SameDraw (left.afterDraws count).next.2 (right.afterDraws count).next.2) ∧
      (compile ⟨first, trace⟩ source).SameButString (compile ⟨second, trace⟩ source)) ∧
    ∀ cause, Encoding.find second = .error cause →
      (∃ front back, cause.message = front ++ second ++ back) ∧
      (∀ count, (∀ earlier < count, ∀ gap body closed rest,
          ¬ (left.afterDraws earlier).MeetsLiteral gap body closed rest) →
        (left.afterDraws count).position = (right.afterDraws count).position ∧
        ((∀ gap body closed rest,
            ¬ (left.afterDraws count).MeetsLiteral gap body closed rest) →
          (left.afterDraws count).next.2 = (right.afterDraws count).next.2) ∧
        ∀ gap body closed rest, (left.afterDraws count).MeetsLiteral gap body closed rest →
          (∃ location, (left.afterDraws count).next.2 =
            .ok ⟨.string, codec.decode body, location⟩) ∧
          (right.afterDraws count).next.2 = .error (.encoding cause) ∧
          (right.afterDraws (count + 1)).position =
            (right.afterDraws count).position.through (gap ++ Byte.quote :: body) ∧
          (right.afterDraws (count + 1)).rest =
            (if closed then [Byte.quote] else []) ++ rest) ∧
      ((compile ⟨first, trace⟩ source).outcome = (compile ⟨second, trace⟩ source).outcome ∨
        (compile ⟨second, trace⟩ source).outcome = .error (.encoding cause) ∧
        ∃ tokens before after token gap body closed rest,
          (compile ⟨first, trace⟩ source).tokens = tokens ++ [token] ∧
          left.Draws tokens before ∧ before.next = (after, .ok token) ∧ token.kind = .string ∧
          before.MeetsLiteral gap body closed rest) := by
  intro left right
  refine ⟨fun other hother => ⟨fun count => Scanner.sameDraw_afterDraws hcodec hother count, ?_⟩,
    fun cause hcause => ⟨Encoding.exists_name_of_find hcause, fun count hunmet => ?_, ?_⟩⟩
  · have hstart : Comparison.decoded.related left right :=
      ⟨⟨rfl, rfl, rfl⟩, ⟨codec, hcodec⟩, other, hother⟩
    exact (Comparison.lawful_decoded.compile hstart).sameButString
  · obtain ⟨hbeside, hsecond, hplain⟩ := Scanner.draw_undecoded hcodec hcause hunmet
    refine ⟨hbeside.position, hplain, fun gap body closed rest hmeets => ?_⟩
    have hfirst : Encoding.find (left.afterDraws count).encoding.name = .ok codec := by
      rw [Scanner.encoding_afterDraws]
      exact hcodec
    have hright := hbeside.meetsLiteral hmeets
    have hdraw := Scanner.next_of_meetsLiteral (hsecond body hright.body_ne_nil) hright
    rw [Scanner.afterDraws_succ, hdraw]
    exact ⟨Scanner.exists_string_of_meetsLiteral hfirst hmeets, rfl, rfl, rfl⟩
  · have hstart : (Comparison.undecoded cause).related left right :=
      ⟨⟨rfl, rfl, rfl⟩, ⟨codec, hcodec⟩, Decoder.refuses_of_find hcause⟩
    exact ((Comparison.lawful_undecoded cause).compile hstart).cases_undecoded

/-- A literal with one letter that two encodings read as one and as two characters, and that a third
name has no reading of. -/
theorem compile_encodings_accent :
    let source : Source := ⟨"accent", [0x6C, 0x65, 0x74, 0x20, 0x61, 0x3D, 0x31, 0x2B, 0x22, 0xC3,
      0xA9, 0x22]⟩
    let refused (found : String) : Fault := .diagnostic
      ⟨.unexpectedToken found (some "number or identifier"), some ⟨"accent", 1, 9⟩,
        some "let a=1+\"Ã©\""⟩
    Encoding.find "utf-8" = .ok .utf8 ∧ Encoding.find "latin-1" = .ok .latin1 ∧
      Encoding.find "hex" = .error (.notText "hex") ∧
      (compile ⟨"utf-8", true⟩ source).outcome.map Result.instructions = .error (refused "é") ∧
      (compile ⟨"latin-1", true⟩ source).outcome.map Result.instructions =
        .error (refused "Ã©") ∧
      (compile ⟨"utf-8", true⟩ source).SameButString (compile ⟨"latin-1", true⟩ source) ∧
      (compile ⟨"hex", true⟩ source).outcome = .error (.encoding (.notText "hex")) ∧
      ∃ tokens before after token gap body closed rest,
        (compile ⟨"utf-8", true⟩ source).tokens = tokens ++ [token] ∧
        (Scanner.ofSource source "utf-8").Draws tokens before ∧
        before.next = (after, .ok token) ∧ token.kind = .string ∧
        before.MeetsLiteral gap body closed rest := by
  intro source refused
  have hutf : Encoding.find "utf-8" = .ok .utf8 := rfl
  have hlatin : Encoding.find "latin-1" = .ok .latin1 := rfl
  have hhex : Encoding.find "hex" = .error (.notText "hex") := rfl
  have hfirst : (compile ⟨"utf-8", true⟩ source).outcome.map Result.instructions =
      .error (refused "é") := by
    decide +kernel
  obtain ⟨_, hsame⟩ := (compile_encodings source hutf true).1 _ hlatin
  obtain ⟨_, _, hcases⟩ := (compile_encodings source hutf true).2 _ hhex
  refine ⟨hutf, hlatin, hhex, hfirst, by decide +kernel, hsame, ?_⟩
  rcases hcases with hequal | hstops
  · have hother : (compile ⟨"hex", true⟩ source).outcome.map Result.instructions ≠
        .error (refused "é") := by
      decide +kernel
    rw [← hequal] at hother
    exact absurd hfirst hother
  · exact hstops

end LetLang
