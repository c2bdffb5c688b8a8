import LetLang.Proofs.Rendering

/-!
# Scanning and rendering undo each other

Scanning a rendering hands out its tokens, whichever gaps stand between them, and a scan that
comes to the end of the input has cut its text into a rendering: no byte is lost, doubled or
moved, and no token is shorter than it could be.
-/

namespace LetLang

theorem Source.text_of_not_mem {source : Source} (hnul : Byte.nul ∉ source.bytes) :
    source.text = source.bytes := by
  refine List.takeWhile_eq_self_iff.mpr fun byte hbyte => ?_
  exact bne_iff_ne.mpr (ne_of_mem_of_not_mem hbyte hnul)

/-- The token of the end of the input at a position. -/
def Source.finish (source : Source) (position : Position) : Token × Position :=
  (⟨.finish, Kind.finish.name, some (source.locate position)⟩, position)

namespace Scanner

theorem scan_of_error {scanner after : Scanner} {fault : Fault}
    (hdraw : scanner.next = (after, .error fault)) : scanner.scan = ⟨[], after, some fault⟩ := by
  rw [scan]
  split
  next heq =>
    rw [hdraw] at heq
    obtain ⟨rfl, hfault⟩ := Prod.mk.inj heq
    obtain rfl := Except.error.inj hfault
    rfl
  next heq =>
    rw [hdraw] at heq
    cases (Prod.mk.inj heq).2

theorem scan_of_ok {scanner after : Scanner} {token : Token}
    (hdraw : scanner.next = (after, .ok token)) :
    scanner.scan =
      if token.kind = .finish then ⟨[(token, after.position)], after, none⟩
      else { after.scan with tokens := (token, after.position) :: after.scan.tokens } := by
  rw [scan]
  split
  next heq =>
    rw [hdraw] at heq
    cases (Prod.mk.inj heq).2
  next heq =>
    rw [hdraw] at heq
    obtain ⟨rfl, rfl⟩ := mk_ok_inj heq
    split <;> rfl

/-- Scanning a rendering hands out its tokens and goes on with what comes after them. -/
theorem scan_of_separate (scanner : Scanner) {codec : Encoding} {rendering : Rendering}
    (hcodec : Encoding.find scanner.encoding.name = .ok codec) (hseparate : rendering.Separate)
    (hrest : scanner.rest = rendering.bytes) :
    let later := (scanner.move rendering.taken rendering.remainder).scan
    scanner.scan = { later with
      tokens := rendering.placed scanner.source codec scanner.position ++ later.tokens } := by
  induction rendering generalizing scanner with
  | done gap =>
      rw [Rendering.bytes] at hrest
      simp only [Rendering.taken, Rendering.remainder, ← hrest, move_nil, Rendering.placed,
        List.nil_append]
  | token gap spelling rest ih =>
      obtain ⟨hgap, hvalid, hends, hseparate⟩ := hseparate
      have hdraw := next_of_spelling hgap hvalid hends hrest
      rw [Spelling.textBy_eq hcodec] at hdraw
      have hkind : spelling.kind ≠ .finish := by
        cases spelling <;> simp [Spelling.kind]
      have hlater := ih (scanner.move (gap ++ spelling.bytes) rest.bytes) hcodec hseparate rfl
      rw [move_move] at hlater
      rw [scan_of_ok hdraw, if_neg hkind, hlater]
      rfl

theorem scan_of_isFinalGap (scanner : Scanner) (hgap : Gap.IsFinalGap scanner.rest) :
    scanner.scan = ⟨[scanner.source.finish (scanner.position.through scanner.rest)],
      scanner.move scanner.rest [], none⟩ := by
  rw [scan_of_ok (next_of_isFinalGap hgap), if_pos rfl]
  rfl

theorem scan_of_admissible (scanner : Scanner) {codec : Encoding} {rendering : Rendering}
    (hcodec : Encoding.find scanner.encoding.name = .ok codec) (hadmissible : rendering.Admissible)
    (hrest : scanner.rest = rendering.bytes) :
    scanner.scan.fault = none ∧
      scanner.scan.tokens = rendering.placed scanner.source codec scanner.position ++
        [scanner.source.finish (scanner.position.through scanner.rest)] := by
  obtain ⟨hseparate, hfinal⟩ := rendering.admissible_iff.mp hadmissible
  have hlater := (scanner.move rendering.taken rendering.remainder).scan_of_isFinalGap hfinal
  -- the end stands where the last gap ends, which is after the whole text
  have hstop : (scanner.position.through rendering.taken).through rendering.remainder =
      scanner.position.through scanner.rest := by
    rw [← Position.through_append, rendering.taken_append_remainder, hrest]
  rw [scanner.scan_of_separate hcodec hseparate hrest, hlater]
  exact ⟨rfl, by simp only [move, hstop]⟩

/-- A scan that comes to the end of the input has read an admissible rendering. -/
theorem exists_admissible_of_scan (scanner : Scanner) {codec : Encoding}
    (hcodec : Encoding.find scanner.encoding.name = .ok codec) (hend : scanner.scan.fault = none) :
    ∃ rendering : Rendering, rendering.Admissible ∧ scanner.rest = rendering.bytes := by
  obtain ⟨rendering, hseparate, hbytes, hremainder⟩ := Rendering.exists_separate scanner.rest
  refine ⟨rendering, rendering.admissible_iff.mpr ⟨hseparate, ?_⟩, hbytes.symm⟩
  rcases hremainder with hfinal | ⟨gap, comment, hgap, hcomment, hremainder⟩
  · exact hfinal
  · -- a comment that never closes would have made the scan fail
    have hdraw :=
      (scanner.move rendering.taken rendering.remainder).next_of_unclosed hgap hcomment hremainder
    have hfault := scan_of_error hdraw
    rw [scanner.scan_of_separate hcodec hseparate hbytes.symm, hfault] at hend
    cases hend

/-- **A scan loses, doubles and moves no byte, and takes every token as long as it can.** When it
comes to the end of the input, its text is gaps and spelled tokens in turn, and it has handed
out exactly these tokens, each placed where it stands, and then the end. -/
theorem scan_divides {codec : Encoding} (source : Source) (encoding : String)
    (hcodec : Encoding.find encoding = .ok codec)
    (hend : (ofSource source encoding).scan.fault = none) :
    ∃ rendering : Rendering, rendering.Admissible ∧ source.text = rendering.bytes ∧
      (ofSource source encoding).scan.tokens = rendering.placed source codec .start ++
        [source.finish (Position.start.through source.text)] := by
  obtain ⟨rendering, hadmissible, hrest⟩ :=
    exists_admissible_of_scan (ofSource source encoding) hcodec hend
  have hscan := scan_of_admissible (ofSource source encoding) hcodec hadmissible hrest
  exact ⟨rendering, hadmissible, hrest, hscan.2⟩

/-- A comment whose closer seems to stand in its opener, a literal that the end cuts off, and a
byte after the end. -/
theorem scan_divides_cut_literal :
    let source : Source := ⟨"cut", [0x78, 0x2F, 0x2A, 0x2F, 0x2A, 0x2F, 0x22, 0x61, 0x00, 0x22]⟩
    Encoding.find "utf-8" = .ok .utf8 ∧ (ofSource source "utf-8").scan.fault = none ∧
      ∃ rendering : Rendering, rendering.Admissible ∧ source.text = rendering.bytes ∧
        (ofSource source "utf-8").scan.tokens = rendering.placed source .utf8 .start ++
          [source.finish (Position.start.through source.text)] := by
  refine ⟨rfl, by decide +kernel, ?_⟩
  exact scan_divides _ _ rfl (by decide +kernel)

/-- **Scanning undoes rendering.** Tokens that are kept apart are handed out as they are, and
then the end; any other gaps that keep the same tokens apart make no difference. -/
theorem scan_rendering {codec : Encoding} (file encoding : String)
    (hcodec : Encoding.find encoding = .ok codec) (rendering : Rendering)
    (hadmissible : rendering.Admissible) (hnul : Byte.nul ∉ rendering.bytes) :
    let scan := (ofSource ⟨file, rendering.bytes⟩ encoding).scan
    scan.fault = none ∧
      scan.tokens.map (·.1.key) = rendering.keys codec ++ [(.finish, "EOF")] ∧
      ∀ other : Rendering, other.Admissible → Byte.nul ∉ other.bytes →
        other.spellings = rendering.spellings →
        (ofSource ⟨file, other.bytes⟩ encoding).scan.tokens.map (·.1.key) =
          scan.tokens.map (·.1.key) := by
  -- what is handed out depends on the tokens alone, so it is shown for both renderings at once
  have hkeys {rendering : Rendering} (hadmissible : rendering.Admissible)
      (hnul : Byte.nul ∉ rendering.bytes) :
      let scan := (ofSource ⟨file, rendering.bytes⟩ encoding).scan
      scan.fault = none ∧
        scan.tokens.map (·.1.key) = rendering.keys codec ++ [(.finish, "EOF")] := by
    obtain ⟨hfault, htokens⟩ := scan_of_admissible (ofSource ⟨file, rendering.bytes⟩ encoding)
      hcodec hadmissible (Source.text_of_not_mem hnul)
    refine ⟨hfault, ?_⟩
    rw [htokens, List.map_append, Rendering.map_key_placed]
    rfl
  obtain ⟨hfault, htokens⟩ := hkeys hadmissible hnul
  refine ⟨hfault, htokens, fun other hother hclean hsame => ?_⟩
  rw [htokens, (hkeys hother hclean).2, Rendering.keys, hsame]
  rfl

/-- A keyword, a comment, digits after a zero, and a slash and a star that a blank keeps from
being a comment. -/
theorem scan_rendering_zeros :
    let rendering : Rendering :=
      .token [] (.keyword .do) <| .token [0x2F, 0x2A, 0x2A, 0x2F] (.number [0x30]) <|
      .token [] (.number [0x37]) <| .token [] (.mark .slash) <| .token [0x20] (.mark .asterisk) <|
      .token [] (.string [0xE9] true) <| .done []
    Encoding.find "latin-1" = .ok .latin1 ∧ rendering.Admissible ∧
      Byte.nul ∉ rendering.bytes ∧
      let scan := (ofSource ⟨"zeros", rendering.bytes⟩ "latin-1").scan
      scan.fault = none ∧
        scan.tokens.map (·.1.key) = rendering.keys .latin1 ++ [(.finish, "EOF")] ∧
        ∀ other : Rendering, other.Admissible → Byte.nul ∉ other.bytes →
          other.spellings = rendering.spellings →
          (ofSource ⟨"zeros", other.bytes⟩ "latin-1").scan.tokens.map (·.1.key) =
            scan.tokens.map (·.1.key) := by
  intro rendering
  have hcomment : Gap.IsGap [0x2F, 0x2A, 0x2A, 0x2F] := ⟨[.blockComment []], by decide, rfl⟩
  have hblank : Gap.IsGap [0x20] := ⟨[.blank 0x20], by decide, rfl⟩
  have hadmissible : rendering.Admissible := by
    simp [rendering, Rendering.Admissible, hcomment, hblank, Gap.isGap_nil, Gap.IsFinalGap,
      Spelling.Valid, Spelling.KeptApart, Spelling.Merges, Rendering.lead, Rendering.spellings,
      Spelling.kind, IsNumber, Byte.zero, Byte.slash, Byte.quote, Byte.isDigit]
  have hnul : Byte.nul ∉ rendering.bytes := by decide
  exact ⟨rfl, hadmissible, hnul, scan_rendering _ _ rfl rendering hadmissible hnul⟩

/-- A zero is a number by itself, and more digits are another one. -/
example : (ofSource ⟨"zeros", [0x30, 0x35]⟩ "utf-8").scan.tokens.map (·.1.key) =
    [(.number, "0"), (.number, "5"), (.finish, "EOF")] := by
  decide +kernel

end Scanner

end LetLang
