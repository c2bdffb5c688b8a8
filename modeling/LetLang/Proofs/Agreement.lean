import LetLang.Proofs.CommandRuns
import LetLang.Proofs.EarliestFaults
import LetLang.Proofs.Renaming
import LetLang.Proofs.Writing

/-!
# The command and the compiler

A run of the command that compiles is decided by the compilation of its source: a result is printed
or written whole, and what the source is refused for is reported. Where the source comes from makes
no difference but for the name that reports call it by. What is printed and reported is plain text.
-/

namespace LetLang

/-- Under an encoding of text a source is compiled to a result or refused by a report. -/
theorem outcome_compile_cases {codec : Encoding} {options : Options} (source : Source)
    (hcodec : Encoding.find options.encoding.name = .ok codec) :
    (∃ result, (compile options source).outcome = .ok result) ∨
      ∃ report, (compile options source).outcome = .error (.diagnostic report) := by
  cases houtcome : (compile options source).outcome with
  | ok result => exact .inl ⟨result, rfl⟩
  | error fault =>
      obtain ⟨report, rfl, _⟩ := (compile_reported source hcodec).2.cause_of_error houtcome
      exact .inr ⟨report, rfl⟩

namespace CommandLine

variable {line : List String} {files : FileTree} {arguments : Arguments} {source : Source}

/-- Whether a command line asks to compile a source, without a log. -/
structure AsksToCompile (line : List String) (files : FileTree) (arguments : Arguments)
    (source : Source) : Prop extends Asks line files arguments source where
  compiling : arguments.has .tokens = false
  quiet : arguments.has .verbose = false

/-! ## Requests to compile -/

namespace Request

variable {request : Request} {result : Result}

theorem compile_of_error {fault : Fault} (hquiet : request.verbose = false)
    (hcompile : (LetLang.compile ⟨request.encoding, false⟩ source).outcome = .error fault) :
    request.compile .calm files source = ⟨(Failure.ofFault fault).exitCode, "",
      Text.plain (Failure.ofFault fault).message ++ "\n", files⟩ := by
  rw [compile, hcompile]
  exact leave_of_failure hquiet _ _ _

theorem compile_of_ok (files : FileTree)
    (hcompile : (LetLang.compile ⟨request.encoding, false⟩ source).outcome = .ok result) :
    ∃ log, request.compile .calm files source = request.deliver .calm files log result := by
  rw [compile, hcompile]
  exact ⟨_, rfl⟩

theorem deliver_of_none (hquiet : request.verbose = false) (log : List String)
    (houtput : request.output = none) :
    request.deliver .calm files log result = ⟨.success, Text.plain result.text, "", files⟩ := by
  rw [deliver, houtput]
  dsimp only
  rw [finish_calm, leave_of_success hquiet]

theorem deliver_of_written (hquiet : request.verbose = false) (log : List String) {path : Path}
    {place : Place} (houtput : request.output = some path)
    (hplace : files.target path = .ok place) :
    request.deliver .calm files log result = ⟨.success,
      Text.plain ("Compiled " ++ result.file ++ " -> " ++ path.render) ++ "\n", "",
      files.set place (.file result.text.toUTF8.toList)⟩ := by
  rw [deliver, houtput]
  dsimp only
  rw [Surroundings.write_calm_of_target hplace]
  dsimp only
  rw [finish_calm, leave_of_success hquiet, receipt, Text.plain_line]

theorem deliver_of_unwritten (hquiet : request.verbose = false) (log : List String) {path : Path}
    {fault : FileFault} (houtput : request.output = some path)
    (hplace : files.target path = .error fault) :
    request.deliver .calm files log result = ⟨(Failure.ofFileFault fault path).exitCode, "",
      Text.plain (Failure.ofFileFault fault path).message ++ "\n", files⟩ := by
  rw [deliver, houtput]
  dsimp only
  rw [Surroundings.write_calm_of_error hplace]
  exact leave_of_failure hquiet _ _ _

end Request

/-! ## Agreement -/

/-- Whether two runs end alike but for the names of their sources: with the same exit code and the
same files, and with the same reports up to the names, which stand at their heads. -/
structure Outcome.AlikeUpTo (first second : Outcome) (file other : String) : Prop where
  exitCode : first.exitCode = second.exitCode
  files : first.files = second.files
  errors : first.errors = second.errors ∨ ∃ rest,
    first.errors = Text.plain (file ++ rest) ++ "\n" ∧
      second.errors = Text.plain (other ++ rest) ++ "\n"

namespace Request

variable {first second : Request} {other : Source}

/-- A result is delivered alike under two names. -/
theorem deliver_alike (files : FileTree) (result : Result) (log later : List String)
    (hfirst : first.verbose = false) (hsecond : second.verbose = false)
    (houtput : second.output = first.output) (file other : String) :
    (first.deliver .calm files log result).AlikeUpTo
        (second.deliver .calm files later (result.rename other)) file other ∧
      (first.output = none → (first.deliver .calm files log result).output =
        (second.deliver .calm files later (result.rename other)).output) := by
  have htext : (result.rename other).text = result.text := rfl
  cases hpath : first.output with
  | none =>
      rw [deliver_of_none hfirst log hpath, deliver_of_none hsecond later (houtput.trans hpath),
        htext]
      exact ⟨⟨rfl, rfl, .inl rfl⟩, fun _ => rfl⟩
  | some path =>
      refine ⟨?_, nofun⟩
      cases hplace : files.target path with
      | ok place =>
          rw [deliver_of_written hfirst log hpath hplace,
            deliver_of_written hsecond later (houtput.trans hpath) hplace]
          exact ⟨rfl, rfl, .inl rfl⟩
      | error fault =>
          rw [deliver_of_unwritten hfirst log hpath hplace,
            deliver_of_unwritten hsecond later (houtput.trans hpath) hplace]
          exact ⟨rfl, rfl, .inl rfl⟩

/-- A source is refused alike under two names. -/
theorem refuse_alike {options : Options} {fault : Fault} (files : FileTree)
    (hfault : (LetLang.compile options source).outcome = .error fault) (file : String) :
    let refused (fault : Fault) : Outcome := ⟨(Failure.ofFault fault).exitCode, "",
      Text.plain (Failure.ofFault fault).message ++ "\n", files⟩
    (refused fault).AlikeUpTo (refused (fault.rename file)) source.file file := by
  intro refused
  cases fault with
  | encoding cause => exact ⟨rfl, rfl, .inl rfl⟩
  | diagnostic report =>
      obtain ⟨rest, hrender, hrenamed⟩ := exists_render_of_outcome hfault
      refine ⟨rfl, rfl, .inr ⟨rest, ?_, ?_⟩⟩
      · rw [← hrender]
        rfl
      · rw [← hrenamed file]
        rfl

/-- Requests to compile the same bytes under two names end alike. -/
theorem compile_alike (files : FileTree) (hfirst : first.verbose = false)
    (hsecond : second.verbose = false) (hencoding : second.encoding = first.encoding)
    (houtput : second.output = first.output) (hbytes : other.bytes = source.bytes) :
    (first.compile .calm files source).AlikeUpTo (second.compile .calm files other)
        source.file other.file ∧
      (first.output = none → (first.compile .calm files source).output =
        (second.compile .calm files other).output) := by
  -- the other source is the first one under its own name
  have hother : other = source.rename other.file := by
    rw [Source.rename, ← hbytes]
  have hcompile := outcome_compile_rename ⟨first.encoding, false⟩ source other.file
  rw [← hother] at hcompile
  cases hresult : (LetLang.compile ⟨first.encoding, false⟩ source).outcome with
  | error fault =>
      rw [hresult, ← hencoding] at hcompile
      rw [compile_of_error hfirst hresult, compile_of_error hsecond hcompile]
      exact ⟨refuse_alike files hresult other.file, fun _ => rfl⟩
  | ok result =>
      rw [hresult, ← hencoding] at hcompile
      obtain ⟨log, hdeliver⟩ := compile_of_ok files hresult
      obtain ⟨later, hlater⟩ := compile_of_ok files hcompile
      rw [hdeliver, hlater]
      exact deliver_alike files result log later hfirst hsecond houtput source.file other.file

end Request

/-- The request that such a command line makes. -/
theorem AsksToCompile.exists_request (hasks : AsksToCompile line files arguments source) :
    ∃ request : Request, run line files = request.compile .calm files source ∧
      request.verbose = false ∧ request.encoding = arguments.encoding ∧
      request.output = (arguments.value? .output).map Path.parse := by
  obtain ⟨input, hrun⟩ := hasks.toAsks.exists_compiled hasks.compiling
  exact ⟨_, hrun, hasks.quiet, rfl, rfl⟩

theorem AsksToCompile.run_of_report {report : Diagnostic}
    (hasks : AsksToCompile line files arguments source)
    (hreport : (compile ⟨arguments.encoding, false⟩ source).outcome = .error (.diagnostic report)) :
    run line files = ⟨.buildError, "", Text.plain report.render ++ "\n", files⟩ := by
  obtain ⟨request, hrun, hquiet, hencoding, _⟩ := hasks.exists_request
  rw [← hencoding] at hreport
  exact hrun.trans (Request.compile_of_error hquiet hreport)

theorem AsksToCompile.run_printed {result : Result}
    (hasks : AsksToCompile line files arguments source)
    (hresult : (compile ⟨arguments.encoding, false⟩ source).outcome = .ok result)
    (hnone : arguments.value? .output = none) :
    run line files = ⟨.success, result.text, "", files⟩ := by
  obtain ⟨request, hrun, hquiet, hencoding, houtput⟩ := hasks.exists_request
  rw [← hencoding] at hresult
  rw [hnone] at houtput
  obtain ⟨log, hdeliver⟩ := Request.compile_of_ok files hresult
  rw [hrun, hdeliver, Request.deliver_of_none hquiet log houtput, plain_text_of_outcome hresult]

theorem AsksToCompile.exists_run_written {result : Result} {path : String}
    (hasks : AsksToCompile line files arguments source)
    (hresult : (compile ⟨arguments.encoding, false⟩ source).outcome = .ok result)
    (hpath : arguments.value? .output = some path) (hwritable : files.Writable (.parse path)) :
    ∃ place, files.target (.parse path) = .ok place ∧
      run line files = ⟨.success, Text.plain
        ("Compiled " ++ source.file ++ " -> " ++ (Path.parse path).render) ++ "\n", "",
        files.set place (.file result.text.toUTF8.toList)⟩ := by
  obtain ⟨request, hrun, hquiet, hencoding, houtput⟩ := hasks.exists_request
  rw [← hencoding] at hresult
  rw [hpath] at houtput
  obtain ⟨place, hplace⟩ := FileTree.writable_iff.mp hwritable
  obtain ⟨log, hdeliver⟩ := Request.compile_of_ok files hresult
  refine ⟨place, hplace, ?_⟩
  rw [hrun, hdeliver, Request.deliver_of_written hquiet log houtput hplace]
  obtain ⟨_, _, _, _, _, _, rfl⟩ := outcome_compile_eq_ok_iff.mp hresult
  rfl

/-- **The command agrees with the compiler.** A source that a command line names is compiled to a
result or refused by a report. A result is printed as it is, or written whole if the output can be
written; a report goes to the error stream in plain text, and nothing is printed. Another command
line that names the same bytes ends alike but for the name of the source in front of a report. -/
theorem run_agrees {codec : Encoding} (hasks : AsksToCompile line files arguments source)
    (hcodec : Encoding.find arguments.encoding = .ok codec) :
    let outcome := run line files
    let compiled := (compile ⟨arguments.encoding, false⟩ source).outcome
    ((∃ result, compiled = .ok result) ∨ ∃ report, compiled = .error (.diagnostic report)) ∧
    (∀ result, compiled = .ok result → arguments.value? .output = none →
      outcome = ⟨.success, result.text, "", files⟩) ∧
    (∀ result path, compiled = .ok result → arguments.value? .output = some path →
      files.Writable (.parse path) →
      outcome.exitCode = .success ∧
        outcome.files.read (.parse path) = .ok result.text.toUTF8.toList ∧
        outcome.output = Text.plain
          ("Compiled " ++ source.file ++ " -> " ++ (Path.parse path).render) ++ "\n" ∧
        outcome.errors = "") ∧
    (∀ report, compiled = .error (.diagnostic report) →
      outcome = ⟨.buildError, "", Text.plain report.render ++ "\n", files⟩) ∧
    ∀ (other : List String) (others : Arguments) (named : Source),
      AsksToCompile other files others named → named.bytes = source.bytes →
      others.encoding = arguments.encoding → others.value? .output = arguments.value? .output →
      outcome.AlikeUpTo (run other files) source.file named.file ∧
        (arguments.value? .output = none → outcome.output = (run other files).output) := by
  intro outcome compiled
  refine ⟨outcome_compile_cases source hcodec, ?_, ?_, ?_, ?_⟩
  · intro result hresult hnone
    exact hasks.run_printed hresult hnone
  · intro result path hresult hpath hwritable
    obtain ⟨place, hplace, hrun⟩ := hasks.exists_run_written hresult hpath hwritable
    have houtcome : outcome = _ := hrun
    rw [houtcome]
    exact ⟨rfl, (FileTree.written_of_target hplace _).holds, rfl, rfl⟩
  · intro report hreport
    exact hasks.run_of_report hreport
  · intro other others named hother hbytes hencoding hvalue
    obtain ⟨first, hfirst, hquiet, hcoded, houtput⟩ := hasks.exists_request
    obtain ⟨second, hsecond, hsilent, hsame, hdelivers⟩ := hother.exists_request
    rw [hencoding, ← hcoded] at hsame
    rw [hvalue, ← houtput] at hdelivers
    have halike := Request.compile_alike files hquiet hsilent hsame hdelivers hbytes
    rw [← hfirst, ← hsecond] at halike
    exact ⟨halike.1, fun hnone => halike.2 (by simp [houtput, hnone])⟩

/-- A file that is compiled to another one, and the expression that it holds. -/
theorem run_agrees_written :
    let files : FileTree := ⟨[(["p.let"], .file "let x = 1 + a;".toUTF8.toList)]⟩
    let outcome := run ["p.let", "-o", "out"] files
    outcome.exitCode = .success ∧
      outcome.files.read (.parse "out") = .ok "push 1\npush a\nadd\npop x\n".toUTF8.toList ∧
      outcome.output = "Compiled p.let -> out\n" ∧ outcome.errors = "" ∧
      outcome.AlikeUpTo (run ["-e", "let x = 1 + a;", "-o", "out"] files) "p.let" "<expr>" := by
  intro files outcome
  let written : Given := .setting .output "out"
  let first : Arguments := ⟨[written], ["p.let"]⟩
  let second : Arguments := ⟨[.setting .expression "let x = 1 + a;", written], []⟩
  let bytes := "let x = 1 + a;".toUTF8.toList
  have hfirst : AsksToCompile ["p.let", "-o", "out"] files first ⟨"p.let", bytes⟩ := by
    refine ⟨⟨by decide +kernel, rfl, rfl, Arguments.checkSettings_settings.mp (by decide +kernel),
      ⟨.file (.parse "p.let"), ?_, rfl⟩⟩, rfl, rfl⟩
    exact .file "p.let" bytes rfl rfl (by decide +kernel) rfl
  have hsecond : AsksToCompile ["-e", "let x = 1 + a;", "-o", "out"] files second
      ⟨"<expr>", bytes⟩ :=
    ⟨.of_expression (by decide +kernel) rfl (by decide +kernel) rfl rfl, rfl, rfl⟩
  have hwritable : files.Writable (.parse "out") := ⟨["out"], by decide +kernel, by decide +kernel⟩
  have hcodec : Encoding.find first.encoding = .ok .utf8 := by decide +kernel
  obtain ⟨_, _, hwritten, _, halike⟩ := run_agrees hfirst hcodec
  have htext : (compile ⟨first.encoding, false⟩ ⟨"p.let", bytes⟩).outcome.map Result.text =
      .ok "push 1\npush a\nadd\npop x\n" := by decide +kernel
  cases hcompiled : (compile ⟨first.encoding, false⟩ ⟨"p.let", bytes⟩).outcome with
  | error fault =>
      rw [hcompiled] at htext
      cases htext
  | ok result =>
      rw [hcompiled] at htext
      obtain ⟨hexit, hread, houtput, herrors⟩ := hwritten result "out" hcompiled rfl hwritable
      rw [Except.ok.inj htext] at hread
      refine ⟨hexit, hread, ?_, herrors, (halike _ _ _ hsecond rfl rfl rfl).1⟩
      rw [houtput]
      decide +kernel

/-- A report that quotes a control sequence. -/
theorem run_agrees_not_literally :
    ∃ (arguments : Arguments) (source : Source) (report : Diagnostic),
      AsksToCompile ["-e", "let x /* \x1b[5mopen"] .empty arguments source ∧
      Encoding.find arguments.encoding = .ok .utf8 ∧
      (compile ⟨arguments.encoding, false⟩ source).outcome = .error (.diagnostic report) ∧
      (run ["-e", "let x /* \x1b[5mopen"] .empty).errors ≠ report.render ++ "\n" := by
  let arguments : Arguments := ⟨[.setting .expression "let x /* \x1b[5mopen"], []⟩
  let source : Source := ⟨"<expr>", "let x /* \x1b[5mopen".toUTF8.toList⟩
  let report : Diagnostic :=
    ⟨.unclosedComment, some ⟨"<expr>", 1, 7⟩, some "let x /* \x1b[5mopen"⟩
  have hasks : AsksToCompile ["-e", "let x /* \x1b[5mopen"] .empty arguments source :=
    ⟨.of_expression (by decide +kernel) rfl (by decide +kernel) rfl rfl, rfl, rfl⟩
  have hfailed : ((compile ⟨arguments.encoding, false⟩ source).outcome.map fun _ => ()) =
      .error (.diagnostic report) := by decide +kernel
  refine ⟨arguments, source, report, hasks, by decide +kernel, ?_, by decide +kernel⟩
  cases houtcome : (compile ⟨arguments.encoding, false⟩ source).outcome with
  | ok result =>
      rw [houtcome] at hfailed
      cases hfailed
  | error fault =>
      rw [houtcome] at hfailed
      exact congrArg Except.error (Except.error.inj hfailed)

end CommandLine

end LetLang
