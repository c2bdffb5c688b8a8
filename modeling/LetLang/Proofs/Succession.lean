import LetLang.Proofs.Layout
import LetLang.Proofs.ParserStates
import LetLang.Proofs.Scanning

/-!
# Statements one after the other

A parser that is called again goes on with the token that it has in hand, which is the one after
the last semicolon. So sources that hold one statement each can be put together and read by one
parser: the token drawn ahead at the end of one is the first token of the next, whatever gaps stand
at the seam between them.
-/

namespace LetLang

/-- A part of a program: a source that is accepted, has no NUL byte, and holds nothing but a gap
after its semicolon. -/
structure Part where
  source : Source
  /-- The lines that the source is compiled to. -/
  lines : List String
  plain : Byte.nul ∉ source.bytes
  compiled : instructionsOf source = .ok lines
  ends : ∃ (layout : Layout) (gap : List Byte), layout.Valid ∧ Gap.IsGap gap ∧
    source.bytes = layout.bytes ++ gap

namespace Part

def bytesOf (parts : List Part) : List Byte :=
  parts.flatMap (·.source.bytes)

/-- The source that is made of all parts. -/
def joined (file : String) (parts : List Part) : Source :=
  ⟨file, bytesOf parts⟩

/-- A scanner of all parts that stands where some of them end and the others begin. -/
def seam (file : String) (encoding : Decoder) (parts : List Part) (count : Nat) : Scanner :=
  (Scanner.ofSource (joined file parts) encoding).move (bytesOf (parts.take count))
    (bytesOf (parts.drop count))

/-- The first token of some parts: `let`, or the end of the input if there are none. -/
def opener : List Part → Kind × String
  | [] => (.finish, Kind.finish.name)
  | _ :: _ => (.keyword .let, Keyword.let.word)

theorem text_joined (file : String) (parts : List Part) :
    (joined file parts).text = bytesOf parts := by
  apply Source.text_of_not_mem
  intro hnul
  obtain ⟨part, _, hbyte⟩ := List.mem_flatMap.mp hnul
  exact part.plain hbyte

theorem seam_zero (file : String) (encoding : Decoder) (parts : List Part) :
    seam file encoding parts 0 = Scanner.ofSource (joined file parts) encoding := by
  rw [seam, List.drop_zero, ← text_joined file parts]
  rfl

theorem seam_succ (file : String) (encoding : Decoder) {parts : List Part} {count : Nat}
    (hcount : count < parts.length) :
    seam file encoding parts (count + 1) =
      (seam file encoding parts count).move parts[count].source.bytes
        (bytesOf (parts.drop (count + 1))) := by
  have htake : bytesOf (parts.take (count + 1)) =
      bytesOf (parts.take count) ++ parts[count].source.bytes := by
    rw [← List.take_append_getElem hcount, bytesOf, List.flatMap_append, List.flatMap_singleton]
    rfl
  rw [seam, seam, Scanner.move_move, htake]

theorem rest_seam {file : String} {encoding : Decoder} {parts : List Part} {count : Nat}
    (hcount : count < parts.length) :
    (seam file encoding parts count).rest =
      parts[count].source.bytes ++ bytesOf (parts.drop (count + 1)) := by
  rw [seam, List.drop_eq_getElem_cons hcount]
  rfl

/-! ## One part -/

/-- The lines of a part are those of the statement that it starts with. -/
theorem lines_eq {part : Part} {layout : Layout} {gap : List Byte} (hvalid : layout.Valid)
    (hgap : Gap.IsGap gap) (hbytes : part.source.bytes = layout.bytes ++ gap) :
    part.lines = layout.statement.instructions.map Instruction.line := by
  have hclosed : ¬ Gap.EndsUnclosed gap := by
    rintro ⟨front, comment, hfront, hcomment, rfl⟩
    have hunclosed := Gap.read_eq_unclosed_iff.mpr ⟨hfront, hcomment, rfl⟩
    rw [Gap.read_of_isFinalGap (Or.inl hgap)] at hunclosed
    cases hunclosed
  have htext : part.source.text = layout.bytes ++ gap := by
    rw [Source.text_of_not_mem part.plain, hbytes]
  have hstandard : Encoding.find Options.standard.encoding.name = .ok .utf8 := rfl
  obtain ⟨tokens, houtcome⟩ := Layout.exists_outcome_of_valid hstandard hvalid htext hclosed
  have hcompiled := part.compiled
  rw [instructionsOf, houtcome] at hcompiled
  exact (Except.ok.inj hcompiled).symm

/-- From the start of a part the tokens of its statement are drawn, and the draw after them goes
on as from the end of the part. -/
theorem exists_draws (part : Part) {scanner : Scanner} {codec : Encoding} {later : List Byte}
    (hcodec : Encoding.find scanner.encoding.name = .ok codec)
    (hrest : scanner.rest = part.source.bytes ++ later) :
    ∃ (statement : Statement) (first : Token) (tokens : List Token) (middle : Scanner),
      part.lines = statement.instructions.map Instruction.line ∧
      (first :: tokens).map Token.key = statement.tokens ∧
      scanner.Draws (first :: tokens) middle ∧
      middle.next = (scanner.move part.source.bytes later).next := by
  obtain ⟨layout, gap, hvalid, hgap, hbytes⟩ := part.ends
  have hrendering : scanner.rest = (layout.rendering (gap ++ later)).bytes := by
    rw [hrest, hbytes, Layout.bytes_rendering, List.append_assoc]
  have hdraws := scanner.draws_of_separate hcodec (hvalid.separate (gap ++ later)) hrendering
  have hkeys := (layout.rendering (gap ++ later)).map_key_placed scanner.source codec
    scanner.position
  have htaken : (layout.rendering (gap ++ later)).taken = layout.bytes := by
    have hall := (layout.rendering (gap ++ later)).taken_append_remainder
    rw [Layout.remainder_rendering, Layout.bytes_rendering] at hall
    exact List.append_cancel_right hall
  rw [hvalid.keys (gap ++ later) codec] at hkeys
  rw [Layout.remainder_rendering, htaken] at hdraws
  obtain ⟨first, tokens, hall⟩ := List.exists_cons_of_ne_nil
    (fun hnil : ((layout.rendering (gap ++ later)).placed scanner.source codec
        scanner.position).map Prod.fst = [] => by
      rw [List.map_eq_nil_iff.mp hnil] at hkeys
      cases hkeys)
  rw [hall] at hdraws
  refine ⟨layout.statement, first, tokens, _, lines_eq hvalid hgap hbytes, ?_, hdraws, ?_⟩
  · rw [← hall, List.map_map]
    exact hkeys
  · -- the gap after the semicolon makes no difference to the draw
    have hafter : (scanner.move layout.bytes (gap ++ later)).rest = gap ++ later := rfl
    rw [Scanner.next_of_gap hgap hafter, Scanner.move_move, ← hbytes]

/-- Before parts in a row the first token of them is drawn. -/
theorem exists_next (parts : List Part) {scanner : Scanner} {codec : Encoding}
    (hcodec : Encoding.find scanner.encoding.name = .ok codec)
    (hrest : scanner.rest = bytesOf parts) :
    ∃ after token, scanner.next = (after, .ok token) ∧ token.key = opener parts := by
  cases parts with
  | nil =>
      have hfinal : Gap.IsFinalGap scanner.rest := by
        rw [hrest]
        exact Or.inl Gap.isGap_nil
      exact ⟨_, _, Scanner.next_of_isFinalGap hfinal, rfl⟩
  | cons part parts =>
      have hpart : scanner.rest = part.source.bytes ++ bytesOf parts := hrest
      obtain ⟨statement, first, tokens, middle, _, hkeys, hdraws, _⟩ :=
        part.exists_draws hcodec hpart
      cases hdraws with
      | cons hdraw _ =>
          rw [Statement.tokens_eq] at hkeys
          exact ⟨_, first, hdraw, (List.cons.inj hkeys).1⟩

/-- A part is read up to the first token of what follows it. -/
theorem read_of_next (part : Part) {scanner after : Scanner} {codec : Encoding}
    {later : List Byte} {state : Parser.State} {last : Token}
    (hcodec : Encoding.find scanner.encoding.name = .ok codec)
    (hrest : scanner.rest = part.source.bytes ++ later)
    (hstate : scanner.next = (state.scanner, .ok state.current))
    (hlast : (scanner.move part.source.bytes later).next = (after, .ok last)) :
    state.reading.fault = none ∧
      state.read = ⟨after, last, state.sink.followedBy part.lines⟩ := by
  obtain ⟨statement, first, tokens, middle, hlines, hkeys, hdraws, hmiddle⟩ :=
    part.exists_draws hcodec hrest
  cases hdraws with
  | cons hdraw hdraws =>
      rw [hstate] at hdraw
      obtain ⟨rfl, rfl⟩ := mk_ok_inj hdraw
      rw [← hmiddle] at hlast
      obtain ⟨hfault, hread, hscanner, hcurrent⟩ := Statement.read_of_draws hkeys
        (Scanner.Draws.concat_iff.mpr ⟨middle, hdraws, hlast⟩)
      refine ⟨hfault, ?_⟩
      rw [Parser.State.read, Parser.State.reading, hread, hscanner, hcurrent, hlines]

/-! ## All parts -/

/-- After some calls the parser has in hand what is drawn at the seam after as many parts, and has
written the lines of these parts. -/
theorem read_iterate {file : String} {encoding : Decoder} {codec : Encoding} {parts : List Part}
    {fresh : Parser.State} (hcodec : Encoding.find encoding.name = .ok codec)
    (hopens : fresh.Opens (joined file parts) encoding) {count : Nat}
    (hcount : count ≤ parts.length) :
    (seam file encoding parts count).next =
        ((Parser.State.read^[count] fresh).scanner,
          .ok (Parser.State.read^[count] fresh).current) ∧
      (Parser.State.read^[count] fresh).sink =
        fresh.sink.followedBy ((parts.take count).flatMap Part.lines) := by
  induction count with
  | zero =>
      rw [seam_zero]
      exact ⟨hopens, by simp⟩
  | succ count ih =>
      obtain ⟨hnext, hsink⟩ := ih (Nat.le_of_succ_le hcount)
      have hfound (seen : Nat) :
          Encoding.find (seam file encoding parts seen).encoding.name = .ok codec := hcodec
      obtain ⟨after, last, hlast, _⟩ :=
        exists_next (parts.drop (count + 1)) (hfound (count + 1)) rfl
      have hmoved := hlast
      rw [seam_succ file encoding hcount] at hmoved
      obtain ⟨_, hread⟩ := parts[count].read_of_next (hfound count) (rest_seam hcount) hnext hmoved
      rw [Function.iterate_succ_apply', hread, hsink, Sink.followedBy_followedBy,
        ← List.take_append_getElem hcount, List.flatMap_append, List.flatMap_singleton]
      exact ⟨hlast, rfl⟩

end Part

/-- **Statements one after the other are read by one parser.** A parser that is made over parts put
together, with any sink, reads them call by call. After some calls its sink has taken exactly the
lines of as many parts, and the token in hand is the one that the scanner draws at the seam: `let`
where another part begins, which the next call reads, and the end of the input after the last.
There a call reports that `let` is missing and changes nothing. -/
theorem Session.parse_in_succession (session : Session) (file : String) (tracing : Bool)
    (sink : Sink) {encoding : Decoder} {codec : Encoding}
    (hcodec : Encoding.find encoding.name = .ok codec) (parts : List Part) {count : Nat}
    (hcount : count ≤ parts.length) :
    let opened := session.performAll (opening (Part.joined file parts) encoding tracing sink)
    let called := opened.1.performAll (List.replicate count (.parse "parser"))
    let next := called.1.perform (.parse "parser")
    ∃ state : Parser.State, called.1.HasParser "parser" state ∧
      state.sink = sink.followedBy ((parts.take count).flatMap Part.lines) ∧
      (Part.seam file encoding parts count).next = (state.scanner, .ok state.current) ∧
      state.current.key = Part.opener (parts.drop count) ∧
      (count < parts.length → next.2 = .parsed none state.read.view) ∧
      (count = parts.length → next.1.HasParser "parser" state ∧
        ∃ location quoted, next.2 = .parsed
          (some (.diagnostic ⟨.unexpectedToken "EOF" (some "'let'"), location, quoted⟩))
          state.view) := by
  intro opened called next
  have hfound (seen : Nat) :
      Encoding.find (Part.seam file encoding parts seen).encoding.name = .ok codec := hcodec
  obtain ⟨scanner, first, hfirst, _⟩ := Part.exists_next parts (hfound 0) rfl
  rw [Part.seam_zero] at hfirst
  let fresh : Parser.State := ⟨scanner, first, sink⟩
  have hopens : fresh.Opens (Part.joined file parts) encoding := hfirst
  have hparser := (hasParser_of_opens session hopens tracing).performAll_parse count
  obtain ⟨hseam, hsink⟩ := Part.read_iterate hcodec hopens hcount
  obtain ⟨after, token, hdraw, hkey⟩ := Part.exists_next (parts.drop count) (hfound count) rfl
  generalize Parser.State.read^[count] fresh = state at hparser hseam hsink
  rw [hseam] at hdraw
  obtain ⟨rfl, rfl⟩ := mk_ok_inj hdraw
  obtain ⟨hafter, hanswer⟩ := hparser.perform_parse
  refine ⟨state, hparser, hsink, hseam, hkey, ?_, ?_⟩
  · intro hmore
    obtain ⟨later, last, hlast, _⟩ :=
      Part.exists_next (parts.drop (count + 1)) (hfound (count + 1)) rfl
    rw [Part.seam_succ file encoding hmore] at hlast
    obtain ⟨hnone, _⟩ := parts[count].read_of_next (hfound count) (Part.rest_seam hmore) hseam hlast
    rw [hnone] at hanswer
    exact hanswer
  · intro hall
    rw [hall, List.drop_length] at hkey
    obtain ⟨hkind, htext⟩ := Prod.mk.inj hkey
    have hother : state.current.kind ≠ .keyword .let := by
      rw [hkind]
      decide
    rw [Parser.State.read_of_kind_ne hother] at hafter hanswer
    rw [Parser.State.reading_of_kind_ne hother, Statement.unexpected, htext] at hanswer
    exact ⟨hafter, _, _, hanswer⟩

/-- Two statements with a comment at the seam, which the parser reads into a stream that has been
written to. The third call fails. -/
theorem Session.parse_in_succession_two :
    ∃ first second : Part,
      first.source = ⟨"first", [0x6C, 0x65, 0x74, 0x20, 0x61, 0x3D, 0x31, 0x3B, 0x2F, 0x2A, 0x2F,
        0x2A, 0x2F]⟩ ∧
      second.source = ⟨"second", [0x6C, 0x65, 0x74, 0x20, 0x62, 0x3D, 0x61, 0x2D, 0x32, 0x3B,
        0x0A]⟩ ∧
      let parts := [first, second]
      let opened := Session.empty.performAll
        (opening (Part.joined "both" parts) "utf-8" false (.stream "held\n"))
      let called := opened.1.performAll (List.replicate 2 (.parse "parser"))
      Encoding.find "utf-8" = .ok .utf8 ∧ 2 ≤ parts.length ∧
        ∃ (state : Parser.State) (location : Option Location) (quoted : Option String),
          state.sink = .stream "held\npush 1\npop a\npush a\npush 2\nsub\npop b\n" ∧
          state.current.key = (.finish, "EOF") ∧
          (called.1.perform (.parse "parser")).2 = .parsed
            (some (.diagnostic ⟨.unexpectedToken "EOF" (some "'let'"), location, quoted⟩))
            state.view := by
  have hname (byte : Byte) (hbyte : byte = 0x61 ∨ byte = 0x62) :
      (Spelling.identifier [byte]).Valid := by
    rcases hbyte with rfl | rfl <;>
      exact ⟨by decide, fun reserved => by cases reserved <;> decide⟩
  have hnumber (byte : Byte) (hbyte : byte = 0x31 ∨ byte = 0x32) :
      (Spelling.number [byte]).Valid := by
    rcases hbyte with rfl | rfl <;> exact Or.inr ⟨by decide, by decide, List.forall_mem_nil _⟩
  let first : Part :=
    { source := ⟨"first", [0x6C, 0x65, 0x74, 0x20, 0x61, 0x3D, 0x31, 0x3B, 0x2F, 0x2A, 0x2F, 0x2A,
        0x2F]⟩
      lines := ["push 1", "pop a"]
      plain := by decide
      compiled := by decide +kernel
      ends := ⟨.compact [0x61] (.number [0x31]) [], [0x2F, 0x2A, 0x2F, 0x2A, 0x2F],
        Layout.valid_compact (hname 0x61 (Or.inl rfl)) ⟨hnumber 0x31 (Or.inl rfl), Or.inl rfl⟩
          (by simp),
        ⟨[.blockComment [0x2F]], by decide, rfl⟩, by decide⟩ }
  let second : Part :=
    { source := ⟨"second", [0x6C, 0x65, 0x74, 0x20, 0x62, 0x3D, 0x61, 0x2D, 0x32, 0x3B, 0x0A]⟩
      lines := ["push a", "push 2", "sub", "pop b"]
      plain := by decide
      compiled := by decide +kernel
      ends := ⟨.compact [0x62] (.identifier [0x61]) [(.sub, .number [0x32])], [0x0A],
        Layout.valid_compact (hname 0x62 (Or.inr rfl)) ⟨hname 0x61 (Or.inl rfl), Or.inr rfl⟩
          (List.forall_mem_singleton.mpr ⟨hnumber 0x32 (Or.inr rfl), Or.inl rfl⟩),
        ⟨[.blank 0x0A], by decide, rfl⟩, by decide⟩ }
  have hcodec : Encoding.find (Decoder.ofName "utf-8").name = .ok .utf8 := rfl
  have hcount : 2 ≤ [first, second].length := le_rfl
  obtain ⟨state, _, hsink, _, hkey, _, hlast⟩ :=
    Session.parse_in_succession .empty "both" false (.stream "held\n") hcodec [first, second] hcount
  obtain ⟨_, location, quoted, hanswer⟩ := hlast rfl
  refine ⟨first, second, rfl, rfl, hcodec, hcount, state, location, quoted, ?_, hkey, hanswer⟩
  rw [hsink]
  rfl

end LetLang
