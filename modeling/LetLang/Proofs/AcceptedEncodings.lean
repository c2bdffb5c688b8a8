import LetLang.Proofs.Encodings
import LetLang.Proofs.Listings

/-!
# Encodings that are accepted

The command accepts every name of an encoding that is known. Some of these stand for a change of
bytes into bytes, some for an encoding that refuses all bytes, and one that is known elsewhere may
refuse what it likes. So a run may end with an internal error: it does exactly if its draws come to
a literal that has no text.
-/

namespace LetLang

open Statement

namespace Decoder

/-- Of what use a known name is for the bodies of literals. -/
inductive Use (decoder : Decoder) : Prop where
  | text (encoding : Encoding) (hnamed : Encoding.named decoder.name = .text encoding)
      (hdecode : ∀ body, decoder.decode body = .ok (encoding.decode body))
  | transform (hnamed : Encoding.named decoder.name = .transform)
      (hrefuses : decoder.Refuses (.notText decoder.name))
  | refusing (reason : String) (hnamed : Encoding.named decoder.name = .refusing reason)
      (hrefuses : decoder.Refuses (.refused decoder.name reason))
  | elsewhere (read : List Byte → Except String String)
      (hnamed : Encoding.named decoder.name = .unknown) (hread : decoder.elsewhere = some read)
      (hdecode : ∀ body, body ≠ [] → decoder.decode body = (read body).mapError .elsewhere)

theorem refuses_of_named {decoder : Decoder} {cause : Encoding.Fault}
    (hnamed : Encoding.named decoder.name ≠ .unknown)
    (hfind : Encoding.find decoder.name = .error cause) : decoder.Refuses cause := by
  intro body hbody
  have hrefuses := refuses_of_find hfind body hbody
  rw [decode_ofName] at hrefuses
  rw [decode_of_named hnamed, hrefuses]

theorem IsKnown.use {decoder : Decoder} (hknown : decoder.IsKnown) : decoder.Use := by
  cases hnamed : Encoding.named decoder.name with
  | text encoding =>
      exact .text encoding hnamed (decode_of_find (by rw [Encoding.find, hnamed]))
  | transform =>
      exact .transform hnamed
        (refuses_of_named (by simp [hnamed]) (by rw [Encoding.find, hnamed]))
  | refusing reason =>
      exact .refusing reason hnamed
        (refuses_of_named (by simp [hnamed]) (by rw [Encoding.find, hnamed]))
  | unknown =>
      cases hread : decoder.elsewhere with
      | none => simp [IsKnown, hnamed, hread] at hknown
      | some read =>
          refine .elsewhere read hnamed hread ?_
          intro body hbody
          rw [decode, hnamed, hread]
          exact if_neg (by simpa using hbody)

end Decoder

/-! ## Draws -/

namespace Scanner

variable {scanner after : Scanner} {fault : Fault}

/-- A draw fails on a comment that never closes, or on a literal that has no text. -/
theorem next_error_cases_of_decoder (hdraw : scanner.next = (after, .error fault)) :
    (∃ report, fault = .diagnostic report ∧ report.cause = .unclosedComment) ∨
      ∃ cause gap body closed rest, fault = .encoding cause ∧
        scanner.MeetsLiteral gap body closed rest ∧
        scanner.encoding.decode body = .error cause := by
  rcases next_error_cases hdraw with ⟨_, _, _, _, _, rfl, _⟩ |
    ⟨gap, spelling, rest, cause, hgap, hvalid, hends, hrest, htext, rfl, _⟩
  · exact .inl ⟨_, rfl, rfl⟩
  · right
    cases spelling with
    | string body closed =>
        have hbody : body ≠ [] := by
          rintro rfl
          rw [Spelling.textBy, Decoder.decode_nil] at htext
          cases htext
        exact ⟨cause, gap, body, closed, rest, rfl, ⟨hgap, hvalid, hends, hbody, hrest⟩, htext⟩
    | _ => cases htext

theorem fault_scan_of_draws {middle : Scanner} {tokens : List Token}
    (hdraws : scanner.Draws tokens middle) (hkinds : ∀ token ∈ tokens, token.kind ≠ .finish)
    (hdraw : middle.next = (after, .error fault)) : scanner.scan.fault = some fault := by
  rw [(drawn_of_draws hdraws hkinds).2, scan_of_error hdraw]

end Scanner

/-! ## Compilations -/

/-- A reading whose tokens are all of use fails with the first draw that fails. -/
theorem Statement.fault_readFrom_of_draws {stage reached : Stage} {scanner middle after : Scanner}
    {current : Token} {tokens : List Token} {emitted : List Instruction} {fault : Fault}
    (hrun : stage.run (current :: tokens) = (emitted, .ok reached))
    (hdraws : scanner.Draws tokens middle) (hdraw : middle.next = (after, .error fault)) :
    (readFrom stage scanner current).fault = some fault := by
  induction tokens generalizing stage scanner current emitted with
  | nil =>
      rw [Stage.run_singleton] at hrun
      cases hdraws with
      | nil => rw [readFrom_of_failed hrun hdraw]
  | cons token tokens ih =>
      obtain ⟨first, next, later, hstep, hlater, rfl⟩ := Stage.run_cons_eq_ok_iff.mp hrun
      cases hdraws with
      | cons htoken hdraws =>
          -- a complete statement would have no use for the next token
          have hopen (name : String) : next ≠ .complete name := by
            rintro rfl
            exact Stage.run_complete_cons_ne_ok hlater
          rw [readFrom_of_open hstep htoken hopen]
          exact ih hlater hdraws

/-- A compilation fails with the first draw that fails after tokens that are all of use. -/
theorem outcome_compile_of_draws {options : Options} {source : Source} {middle after : Scanner}
    {tokens : List Token} {emitted : List Instruction} {reached : Stage} {fault : Fault}
    (hdraws : (Scanner.ofSource source options.encoding).Draws tokens middle)
    (hrun : Stage.start.run tokens = (emitted, .ok reached))
    (hdraw : middle.next = (after, .error fault)) :
    (compile options source).outcome = .error fault := by
  cases hdraws with
  | nil => exact outcome_compile_of_error hdraw
  | cons hfirst hdraws =>
      exact outcome_compile_of_fault hfirst (fault_readFrom_of_draws hrun hdraws hdraw)

/-- Whether the tokens of a source start with some, and a literal comes next that has no text. -/
def Source.HasUndecoded (source : Source) (decoder : Decoder) (tokens : List Token) : Prop :=
  ∃ middle gap body closed rest cause, (Scanner.ofSource source decoder).Draws tokens middle ∧
    middle.MeetsLiteral gap body closed rest ∧ decoder.decode body = .error cause

section

variable {decoder : Decoder} {source : Source} {tokens : List Token}

/-- A literal comes next that has no text exactly if the next draw fails by the encoding. -/
theorem Source.hasUndecoded_iff : source.HasUndecoded decoder tokens ↔
    ∃ middle after cause, (Scanner.ofSource source decoder).Draws tokens middle ∧
      middle.next = (after, .error (.encoding cause)) := by
  constructor
  · rintro ⟨middle, gap, body, closed, rest, cause, hdraws, hmeets, hcause⟩
    rw [← (Scanner.Reachable.start.of_draws hdraws).encoding_eq] at hcause
    exact ⟨middle, _, cause, hdraws, Scanner.next_of_meetsLiteral hcause hmeets⟩
  · rintro ⟨middle, after, cause, hdraws, hdraw⟩
    rcases Scanner.next_error_cases_of_decoder hdraw with ⟨_, hreport, _⟩ |
      ⟨found, gap, body, closed, rest, _, hmeets, hcause⟩
    · cases hreport
    · rw [(Scanner.Reachable.start.of_draws hdraws).encoding_eq] at hcause
      exact ⟨middle, gap, body, closed, rest, found, hdraws, hmeets, hcause⟩

theorem scan_undecoded_iff (source : Source) (decoder : Decoder) :
    (∃ cause, (Scanner.ofSource source decoder).scan.fault = some (.encoding cause)) ↔
      ∃ tokens, source.HasUndecoded decoder tokens ∧
        ∀ token ∈ tokens, token.kind ≠ .finish := by
  constructor
  · rintro ⟨cause, hfault⟩
    have hscanned := (Scanner.ofSource source decoder).scanned
    rw [hfault] at hscanned
    generalize (Scanner.ofSource source decoder).scan.drawn = drawn at hscanned
    cases hscanned with
    | failed tokens middle after fault hdraws hkinds hdraw =>
        exact ⟨_, Source.hasUndecoded_iff.mpr ⟨middle, after, cause, hdraws, hdraw⟩, hkinds⟩
  · rintro ⟨tokens, hliteral, hkinds⟩
    obtain ⟨middle, after, cause, hdraws, hdraw⟩ := Source.hasUndecoded_iff.mp hliteral
    exact ⟨cause, Scanner.fault_scan_of_draws hdraws hkinds hdraw⟩

theorem compile_undecoded_iff (source : Source) (decoder : Decoder) (trace : Bool) :
    (∃ cause, (compile ⟨decoder, trace⟩ source).outcome = .error (.encoding cause)) ↔
      ∃ tokens emitted reached, source.HasUndecoded decoder tokens ∧
        Stage.start.run tokens = (emitted, .ok reached) := by
  constructor
  · rintro ⟨cause, hfault⟩
    cases compile_verdict ⟨decoder, trace⟩ source with
    | accepted _ _ _ _ _ _ _ _ _ houtcome => cases hfault.symm.trans houtcome
    | refused _ _ _ _ _ _ _ _ _ _ _ _ houtcome => cases hfault.symm.trans houtcome
    | failed tokens middle after fault reached emitted hdraws hrun hdraw _ houtcome =>
        obtain rfl := Except.error.inj (hfault.symm.trans houtcome)
        exact ⟨tokens, emitted, reached,
          Source.hasUndecoded_iff.mpr ⟨middle, after, cause, hdraws, hdraw⟩, hrun⟩
  · rintro ⟨tokens, emitted, reached, hliteral, hrun⟩
    obtain ⟨middle, after, cause, hdraws, hdraw⟩ := Source.hasUndecoded_iff.mp hliteral
    exact ⟨cause, outcome_compile_of_draws hdraws hrun hdraw⟩

end

namespace CommandLine

variable {surroundings : Surroundings} {files : FileTree} {source : Source}

theorem Failure.exitCode_ofFault {fault : Fault} :
    (Failure.ofFault fault).exitCode = .internalError ↔ ∃ cause, fault = .encoding cause := by
  cases fault <;> simp [ofFault, exitCode]

theorem Request.exitCode_list (htakes : surroundings.Takes) (request : Request) (files : FileTree)
    (source : Source) :
    (request.list surroundings files source).exitCode = .internalError ↔
      ∃ cause, (Scanner.ofSource source request.encoding).scan.fault =
        some (.encoding cause) := by
  rw [list_of_takes htakes, leave]
  cases (Scanner.ofSource source request.encoding).scan.fault with
  | none => simp
  | some fault => simpa using Failure.exitCode_ofFault

/-- A result that can be delivered is no internal error. -/
theorem Request.exitCode_compile {request : Request} (htakes : surroundings.Takes)
    (hopens : ∀ path, request.output = some path →
      files.Writable path ∧ surroundings.opening path = none) :
    (request.compile surroundings files source).exitCode = .internalError ↔
      ∃ cause, (LetLang.compile ⟨request.encoding, false⟩ source).outcome =
        .error (.encoding cause) := by
  have hfinish (files : FileTree) (log : List String) (text : String) :
      request.finish surroundings files log text = request.leave files (Text.plain text) log none :=
    finish_of_taken (htakes.printing _ _)
  have hcompiled := request.compiled surroundings files source
  generalize request.compile surroundings files source = outcome at hcompiled
  cases hcompiled with
  | refused fault log hcompile =>
      rw [hcompile]
      simpa [leave] using Failure.exitCode_ofFault
  | printed result log hcompile _ =>
      rw [hcompile, hfinish]
      simp [leave]
  | written result path place log hcompile _ _ =>
      rw [hcompile, hfinish]
      simp [leave]
  | cut result path place count fault log _ _ _ hstoring =>
      cases hstoring.symm.trans (htakes.storing _ _)
  | unopened result path failure log _ houtput hwrite =>
      -- the output is opened, so that this is no way to end
      obtain ⟨hwritable, hopening⟩ := hopens path houtput
      obtain ⟨place, hplace⟩ := FileTree.writable_iff.mp hwritable
      simp [Surroundings.write, hplace, hopening, htakes.storing] at hwrite

/-- **An encoding that is accepted fails only at literals that have no text.** Under a name that is
accepted a draw fails on a comment that never closes, or by the encoding on a literal that is not
empty, and it fails on every literal that the decoder has no text for. The decoder has a text for
all bytes if the name is one of a text encoding of the table, and for none if it is another name of
the table. Where the system takes all that is printed and stored, a listing ends with an internal
error exactly if the tokens of the source come to such a literal, and a compilation whose output is
opened exactly if the tokens before the literal are all of use. -/
theorem accepted_encoding_fails_iff {surroundings : Surroundings} {name : String}
    (haccepted : surroundings.Knows name) (source : Source) :
    let decoder := surroundings.decoder name
    decoder.Use ∧
    (∀ scanner after fault, Scanner.Reachable source decoder scanner →
      scanner.next = (after, .error fault) →
      (∃ report, fault = .diagnostic report ∧ report.cause = .unclosedComment) ∨
        ∃ cause gap body closed rest, fault = .encoding cause ∧
          scanner.MeetsLiteral gap body closed rest ∧ decoder.decode body = .error cause) ∧
    (∀ scanner gap body closed rest cause, Scanner.Reachable source decoder scanner →
      scanner.MeetsLiteral gap body closed rest → decoder.decode body = .error cause →
      scanner.next.2 = .error (.encoding cause)) ∧
    ∀ line files arguments, Asks line files arguments source surroundings →
      arguments.encoding = name → surroundings.Takes →
      (arguments.has .tokens = true →
        ((run line files surroundings).exitCode = .internalError ↔
          ∃ tokens, source.HasUndecoded decoder tokens ∧
            ∀ token ∈ tokens, token.kind ≠ .finish)) ∧
      (arguments.has .tokens = false →
        (∀ path, arguments.value? .output = some path →
          files.Writable (.parse path) ∧ surroundings.opening (.parse path) = none) →
        ((run line files surroundings).exitCode = .internalError ↔
          ∃ tokens emitted reached, source.HasUndecoded decoder tokens ∧
            Stage.start.run tokens = (emitted, .ok reached))) := by
  intro decoder
  refine ⟨Decoder.IsKnown.use haccepted, ?_, ?_, ?_⟩
  · intro scanner after fault hreached hdraw
    have hcases := Scanner.next_error_cases_of_decoder hdraw
    rwa [hreached.encoding_eq] at hcases
  · intro scanner gap body closed rest cause hreached hmeets hcause
    rw [← hreached.encoding_eq] at hcause
    rw [Scanner.next_of_meetsLiteral hcause hmeets]
  · intro line files arguments hasks hname htakes
    have hencoding (input : Input) :
        (arguments.requestFor surroundings input).encoding = decoder := by
      rw [Arguments.requestFor, hname]
    refine ⟨?_, ?_⟩
    · intro hlisting
      obtain ⟨input, hrun⟩ := hasks.exists_listed hlisting
      rw [hrun, Request.exitCode_list htakes, hencoding, scan_undecoded_iff]
    · intro hcompiling hopens
      obtain ⟨input, hrun⟩ := hasks.exists_compiled hcompiling
      have houtput : ∀ path, (arguments.requestFor surroundings input).output = some path →
          files.Writable path ∧ surroundings.opening path = none := by
        intro path hpath
        obtain ⟨text, htext, rfl⟩ := Option.map_eq_some_iff.mp hpath
        exact hopens text htext
      rw [hrun, Request.exitCode_compile htakes houtput, hencoding, compile_undecoded_iff]

/-- A literal after a statement, which the compilation comes to when it draws one token more, under
a name of the table. One with an accent, which a name that is known elsewhere has no text for. -/
theorem accepted_encoding_fails_iff_literal :
    let source : Source := ⟨"<expr>", "let x = 1; \"s\"".toUTF8.toList⟩
    let accented : Source := ⟨"<expr>", "\"é\"".toUTF8.toList⟩
    let complaint := "'ascii' codec can't decode byte 0xc3 in position 0: ordinal not in range(128)"
    let punycode : Surroundings := { Surroundings.calm with
      elsewhere := fun name => if name = "punycode" then some fun _ => .error complaint else none }
    (Surroundings.calm.Knows "hex" ∧
      (run ["--encoding", "hex", "-e", "let x = 1; \"s\""] .empty).exitCode = .internalError ∧
      ∃ tokens emitted reached, source.HasUndecoded "hex" tokens ∧
        Stage.start.run tokens = (emitted, .ok reached)) ∧
    punycode.Knows "punycode" ∧
      (run ["--encoding", "punycode", "--tokens", "-e", "\"é\""] .empty punycode).exitCode =
        .internalError ∧
      ∃ tokens, accented.HasUndecoded (punycode.decoder "punycode") tokens ∧
        ∀ token ∈ tokens, token.kind ≠ .finish := by
  intro source accented complaint punycode
  have hhex : Surroundings.calm.Knows "hex" := by decide
  have hpunycode : punycode.Knows "punycode" := by decide
  have hcompiling : Asks ["--encoding", "hex", "-e", "let x = 1; \"s\""] .empty
      ⟨[.setting .encoding "hex", .setting .expression "let x = 1; \"s\""], []⟩ source :=
    .of_expression (by decide +kernel) rfl (by decide +kernel) rfl rfl
  have hlisting : Asks ["--encoding", "punycode", "--tokens", "-e", "\"é\""] .empty
      ⟨[.setting .encoding "punycode", .flag .tokens, .setting .expression "\"é\""], []⟩ accented
      punycode :=
    .of_expression (by decide +kernel) rfl (by decide +kernel) rfl rfl
  have hexit : (run ["--encoding", "hex", "-e", "let x = 1; \"s\""] .empty).exitCode =
      .internalError := by decide +kernel
  have hfails :
      (run ["--encoding", "punycode", "--tokens", "-e", "\"é\""] .empty punycode).exitCode =
        .internalError := by decide +kernel
  have htakes : punycode.Takes := ⟨fun _ _ => rfl, fun _ _ => rfl⟩
  obtain ⟨_, _, _, hruns⟩ := accepted_encoding_fails_iff hhex source
  obtain ⟨_, _, _, hothers⟩ := accepted_encoding_fails_iff hpunycode accented
  obtain ⟨_, hcompiles⟩ := hruns _ _ _ hcompiling rfl Surroundings.takes_calm
  obtain ⟨hlists, _⟩ := hothers _ _ _ hlisting rfl htakes
  exact ⟨⟨hhex, hexit, (hcompiles rfl nofun).mp hexit⟩, hpunycode, hfails,
    (hlists rfl).mp hfails⟩

/-- A name that is accepted, and a literal that it makes the first draw and the run fail at. -/
theorem accepted_encoding_of_no_use :
    ∃ (arguments : Arguments) (source : Source) (scanner : Scanner),
      Asks ["--encoding", "hex", "--tokens", "-e", "\"s\""] .empty arguments source ∧
      Encoding.named arguments.encoding ≠ .unknown ∧
      Scanner.Reachable source arguments.encoding scanner ∧
      scanner.next.2 = .error (.encoding (.notText "hex")) ∧
      (run ["--encoding", "hex", "--tokens", "-e", "\"s\""] .empty).exitCode =
        .internalError := by
  let arguments : Arguments :=
    ⟨[.setting .encoding "hex", .flag .tokens, .setting .expression "\"s\""], []⟩
  let source : Source := ⟨"<expr>", "\"s\"".toUTF8.toList⟩
  have hasks : Asks ["--encoding", "hex", "--tokens", "-e", "\"s\""] .empty arguments source :=
    .of_expression (by decide +kernel) rfl (by decide +kernel) rfl rfl
  have hfailed : ((Scanner.ofSource source "hex").next.2.map fun _ => ()) =
      .error (.encoding (.notText "hex")) := by decide +kernel
  refine ⟨arguments, source, Scanner.ofSource source "hex", hasks, by decide +kernel, .start, ?_,
    by decide +kernel⟩
  cases hdraw : (Scanner.ofSource source "hex").next.2 with
  | ok token =>
      rw [hdraw] at hfailed
      cases hfailed
  | error fault =>
      rw [hdraw] at hfailed
      exact congrArg Except.error (Except.error.inj hfailed)

end CommandLine

end LetLang
