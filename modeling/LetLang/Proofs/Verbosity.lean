import LetLang.Proofs.EarliestFaults
import LetLang.Proofs.FileEffects
import LetLang.Proofs.ParserStates

/-!
# Verbose runs

The log is a view of what happens and decides nothing. A verbose run ends as the quiet one does,
prints the same and leaves the same files; it reports the same too, with the log in front, and marks
a failure that was not foreseen. The log shows every token that is drawn and every instruction that
is emitted, in the order of time, also when the work comes to nothing.
-/

namespace LetLang

/-! ## What a parser does -/

/-- The lines that a compilation emits, whether it comes to a result or not. -/
def Compilation.lines (compilation : Compilation) : List String :=
  (compilation.events.filterMap Event.instruction?).map Instruction.line

/-- A session in which a parser has been called once, with a scanner that records its tokens and a
sink that keeps its lines apart. -/
def Session.parsing (source : Source) (encoding : Decoder) : Session :=
  (empty.performAll (opening source encoding true (.list []) ++ [.parse "parser"])).1

namespace Session

variable {source : Source} {encoding : Decoder} {scanner : Scanner}

theorem parsing_of_error {fault : Fault}
    (hfirst : (Scanner.ofSource source encoding).next = (scanner, .error fault)) :
    (parsing source encoding).scanners = [⟨scanner, true, []⟩] ∧
      (parsing source encoding).sinks = [.list []] := by
  simp [parsing, opening, performAll, perform, openParser, draw, record, addScanner, addSink, bind,
    forget, empty, scanner?, sink?, parser?, List.lookup_cons, hfirst]

theorem parsing_of_ok {first : Token}
    (hfirst : (Scanner.ofSource source encoding).next = (scanner, .ok first)) :
    let reading := Statement.read scanner first
    (parsing source encoding).scanners = [⟨reading.scanner, true, first :: reading.tokens⟩] ∧
      (parsing source encoding).sinks = [.list reading.lines] := by
  simp [parsing, opening, performAll, perform, openParser, draw, record, addScanner, addSink,
    addParser, bind, forget, empty, scanner?, sink?, parser?, read, List.lookup_cons, hfirst,
    Sink.emitAll_eq, Sink.followedBy]

/-- A compilation draws and emits what a parser does. -/
theorem parsing_eq (options : Options) (source : Source) :
    (parsing source options.encoding).scanners.map Tape.handed =
        [(LetLang.compile options source).tokens] ∧
      (parsing source options.encoding).sinks =
        [.list (LetLang.compile options source).lines] := by
  rcases hfirst : (Scanner.ofSource source options.encoding).next with ⟨scanner, fault | first⟩
  · obtain ⟨hscanners, hsinks⟩ := parsing_of_error hfirst
    rw [hscanners, hsinks, LetLang.compile, hfirst]
    exact ⟨rfl, rfl⟩
  · obtain ⟨hscanners, hsinks⟩ := parsing_of_ok hfirst
    rw [hscanners, hsinks, LetLang.compile, hfirst]
    exact ⟨rfl, rfl⟩

end Session

namespace CommandLine

variable {surroundings : Surroundings} {line : List String} {files : FileTree} {source : Source}

/-! ## Logs -/

/-- What stands behind a heading, if an entry of a log has it. -/
def behind? (heading entry : String) : Option String :=
  if heading.toList <+: entry.toList then
    some (String.ofList (entry.toList.drop heading.toList.length))
  else none

/-- What the entries of a log with a heading say, in order. -/
def headed (heading : String) (log : List String) : List String :=
  log.filterMap (behind? heading)

theorem behind?_append (heading text : String) : behind? heading (heading ++ text) = some text := by
  rw [behind?, String.toList_append, if_pos (List.prefix_append _ _), List.drop_left,
    String.ofList_toList]

/-- An entry that starts with other words does not have the heading. -/
theorem behind?_of_other (heading other text : String)
    (hheading : ¬ heading.toList <+: other.toList) (hother : ¬ other.toList <+: heading.toList) :
    behind? heading (other ++ text) = none := by
  rw [behind?, if_neg]
  intro hentry
  rw [String.toList_append] at hentry
  rcases List.prefix_or_prefix_of_prefix hentry (List.prefix_append _ _) with hfront | hfront
  · exact hheading hfront
  · exact hother hfront

/-- What entries of a log start with. -/
def headings : List String :=
  ["Compiling ", "Scanned ", "Emit: ", "Parsed let statement for '", "Compiled "]

/-- An entry with a heading does not have another one. -/
theorem behind?_of_ne {heading other : String} (hheading : heading ∈ headings)
    (hother : other ∈ headings) (hne : heading ≠ other) (text : String) :
    behind? heading (other ++ text) = none := by
  have hapart : ∀ first ∈ headings, ∀ second ∈ headings, first ≠ second →
      ¬ first.toList <+: second.toList := by decide +kernel
  exact behind?_of_other heading other text (hapart heading hheading other hother hne)
    (hapart other hother heading hheading hne.symm)

theorem logLine_drawn (token : Token) :
    logLine (.drawn token) = "Scanned " ++ token.render := rfl

theorem logLine_emitted (instruction : Instruction) :
    logLine (.emitted instruction) = "Emit: " ++ instruction.line := rfl

theorem logLine_completed (target : String) :
    logLine (.completed target) = "Parsed let statement for '" ++ (target ++ "'") :=
  String.append_assoc ..

theorem behind?_emit (event : Event) :
    behind? "Emit: " (logLine event) = event.instruction?.map Instruction.line := by
  cases event with
  | drawn token =>
      rw [logLine_drawn, behind?_of_ne (by simp [headings]) (by simp [headings]) (by simp)]
      rfl
  | emitted instruction =>
      rw [logLine_emitted, behind?_append]
      rfl
  | completed target =>
      rw [logLine_completed, behind?_of_ne (by simp [headings]) (by simp [headings]) (by simp)]
      rfl

theorem behind?_scanned (event : Event) :
    behind? "Scanned " (logLine event) = event.token?.map Token.render := by
  cases event with
  | drawn token =>
      rw [logLine_drawn, behind?_append]
      rfl
  | emitted instruction =>
      rw [logLine_emitted, behind?_of_ne (by simp [headings]) (by simp [headings]) (by simp)]
      rfl
  | completed target =>
      rw [logLine_completed, behind?_of_ne (by simp [headings]) (by simp [headings]) (by simp)]
      rfl

/-- What opens the log of a source and closes that of a compilation shows nothing else. -/
theorem behind?_opening {heading : String} (hheading : heading ∈ headings)
    (hne : heading ≠ "Compiling ") (source : Source) :
    behind? heading (Request.opening source) = none := by
  rw [Request.opening, String.append_assoc, String.append_assoc, String.append_assoc]
  exact behind?_of_ne hheading (by simp [headings]) hne _

theorem behind?_closing {heading : String} (hheading : heading ∈ headings)
    (hne : heading ≠ "Compiled ") (result : Result) :
    behind? heading (Request.closing result) = none := by
  rw [Request.closing, String.append_assoc, String.append_assoc, String.append_assoc]
  exact behind?_of_ne hheading (by simp [headings]) hne _

/-- The log of the work on a source: what happens, and the result if there is one. -/
def workLog (source : Source) (events : List Event) (result : Option Result) : List String :=
  Request.opening source :: events.map logLine ++ (result.map Request.closing).toList

theorem headed_workLog {heading : String} (hheading : heading ∈ headings)
    (hopening : heading ≠ "Compiling ") (hclosing : heading ≠ "Compiled ") (source : Source)
    (events : List Event) (result : Option Result) :
    headed heading (workLog source events result) =
      events.filterMap fun event => behind? heading (logLine event) := by
  have hlast : (result.map Request.closing).toList.filterMap (behind? heading) = [] := by
    cases result with
    | none => rfl
    | some result => exact List.filterMap_cons_none (behind?_closing hheading hclosing result)
  rw [headed, workLog, List.filterMap_append, hlast, List.append_nil,
    List.filterMap_cons_none (behind?_opening hheading hopening source), List.filterMap_map]
  rfl

/-- The instructions in a log are those that were emitted. -/
theorem headed_emit_workLog (source : Source) (events : List Event) (result : Option Result) :
    headed "Emit: " (workLog source events result) =
      (events.filterMap Event.instruction?).map Instruction.line := by
  rw [headed_workLog (by simp [headings]) (by simp) (by simp), List.map_filterMap]
  exact List.filterMap_congr fun event _ => behind?_emit event

/-- The tokens in a log are those that were drawn. -/
theorem headed_scanned_workLog (source : Source) (events : List Event) (result : Option Result) :
    headed "Scanned " (workLog source events result) =
      (events.filterMap Event.token?).map Token.render := by
  rw [headed_workLog (by simp [headings]) (by simp) (by simp), List.map_filterMap]
  exact List.filterMap_congr fun event _ => behind?_scanned event

theorem filterMap_drawn (tokens : List Token) :
    (tokens.map Event.drawn).filterMap Event.instruction? = [] ∧
      (tokens.map Event.drawn).filterMap Event.token? = tokens := by
  rw [List.filterMap_map, List.filterMap_map]
  exact ⟨List.filterMap_eq_nil_iff.mpr fun _ _ => rfl, List.filterMap_some⟩

/-! ## The same run with a log -/

/-- An outcome with a log in front of what is reported, and the mark of a failure that was not
foreseen. -/
def Outcome.logged (outcome : Outcome) (log : List String) : Outcome :=
  { outcome with errors := logText true log ++ outcome.errors ++
      if outcome.exitCode = .internalError then Failure.traceHeading else "" }

theorem Outcome.logged_nil {outcome : Outcome} (hexit : outcome.exitCode ≠ .internalError) :
    outcome.logged [] = outcome := by
  rw [logged, if_neg hexit]
  simp [logText, textOfLines]

namespace Request

variable {request : Request}

/-- The same request with a log. -/
def loud (request : Request) : Request := { request with verbose := true }

theorem leave_loud (hquiet : request.verbose = false) (files : FileTree) (output : String)
    (log : List String) (failure : Option Failure) :
    request.loud.leave files output log failure =
      (request.leave files output log failure).logged log := by
  cases failure with
  | none => simp [leave, loud, Outcome.logged, logText, hquiet]
  | some failure =>
      cases failure <;>
        simp [leave, loud, Outcome.logged, logText, hquiet, Failure.report, Failure.isTraced,
          Failure.exitCode, String.append_assoc]

theorem list_loud (htakes : surroundings.Takes) (hquiet : request.verbose = false)
    (files : FileTree) (source : Source) :
    let tokens := (Scanner.ofSource source request.encoding).scan.drawn
    request.loud.list surroundings files source =
      (request.list surroundings files source).logged
        (workLog source (tokens.map .drawn) none) := by
  intro tokens
  have hlog : workLog source (tokens.map .drawn) none =
      opening source :: tokens.map (logLine <| .drawn ·) := by
    rw [workLog, List.map_map]
    exact List.append_nil _
  rw [hlog, list_of_takes htakes, list_of_takes htakes]
  exact leave_loud hquiet files _ _ _

theorem deliver_loud (hquiet : request.verbose = false) (files : FileTree) (log : List String)
    (result : Result) :
    request.loud.deliver surroundings files log result =
      (request.deliver surroundings files log result).logged log := by
  have houtput : request.loud.output = request.output := rfl
  rw [deliver, deliver, houtput]
  split
  next => exact leave_loud hquiet files _ log _
  next path _ =>
    split
    next written failure _ => exact leave_loud hquiet written _ log _
    next written _ => exact leave_loud hquiet written _ log _

theorem compile_loud (hquiet : request.verbose = false) (files : FileTree) (source : Source) :
    let compilation := LetLang.compile ⟨request.encoding, false⟩ source
    request.loud.compile surroundings files source =
      (request.compile surroundings files source).logged
        (workLog source compilation.events compilation.outcome.toOption) := by
  have hencoding : request.loud.encoding = request.encoding := rfl
  rw [compile, compile, hencoding]
  dsimp only
  generalize LetLang.compile ⟨request.encoding, false⟩ source = compilation
  cases compilation.outcome with
  | error fault =>
      have hlog : workLog source compilation.events none =
          opening source :: compilation.events.map logLine := List.append_nil _
      dsimp only [Except.toOption]
      rw [hlog]
      exact leave_loud hquiet files _ _ _
  | ok result => exact deliver_loud hquiet files _ result

end Request

/-! ## The flag in front -/

namespace Arguments

/-- The same arguments with the verbose flag in front. -/
def loud (arguments : Arguments) : Arguments := arguments.withGiven [.flag .verbose]

theorem answer?_loud (arguments : Arguments) : arguments.loud.answer? = arguments.answer? := rfl

theorem checkSettings_loud (arguments : Arguments) (settings : List Setting) :
    arguments.loud.checkSettings surroundings files settings =
      arguments.checkSettings surroundings files settings := by
  induction settings with
  | nil => rfl
  | cons setting rest ih =>
      have hcheck : arguments.loud.checkSetting surroundings files setting =
          arguments.checkSetting surroundings files setting := rfl
      rw [checkSettings, checkSettings, hcheck, ih]

theorem request_loud (arguments : Arguments) :
    arguments.loud.request surroundings files =
      (arguments.request surroundings files).map Request.loud := by
  have hsettings : arguments.loud.settings = arguments.settings := rfl
  have hfile : arguments.loud.inputFile surroundings files =
      arguments.inputFile surroundings files := rfl
  have hchoice (file : Option Path) :
      arguments.loud.chooseInput file = arguments.chooseInput file := rfl
  rw [request, request, hsettings, checkSettings_loud, hfile]
  cases arguments.checkSettings surroundings files arguments.settings with
  | error fault => rfl
  | ok done =>
      cases arguments.inputFile surroundings files with
      | error fault => rfl
      | ok file =>
          simp only [bind, Except.bind, hchoice]
          cases arguments.chooseInput file with
          | error fault => rfl
          | ok input => rfl

end Arguments

theorem readArguments_verbose (line : List String) :
    readArguments ("-v" :: line) = (readArguments line).map Arguments.loud := by
  have hname : ("-v" == "--") = false := by decide +kernel
  have hoption : isOption "-v".toList = true := by decide +kernel
  have hread : readOption "-v".toList = .ok ⟨[.flag .verbose], none⟩ := by decide +kernel
  rw [readArguments, hname, hoption, hread]
  rfl

/-- The log of the work that arguments ask for. -/
def Arguments.log (arguments : Arguments) (source : Source) : List String :=
  if arguments.has .tokens then
    workLog source ((Scanner.ofSource source arguments.encoding).scan.drawn.map .drawn) none
  else
    let compilation := compile ⟨arguments.encoding, false⟩ source
    workLog source compilation.events compilation.outcome.toOption

/-- Work that is done with a log is the same work. -/
theorem Asks.run_verbose {arguments : Arguments} (hasks : Asks line files arguments source)
    (hquiet : arguments.has .verbose = false) :
    run ("-v" :: line) files = (run line files).logged (arguments.log source) := by
  obtain ⟨input, hnames, hgranted⟩ := hasks.names
  have hanswer := Arguments.answer?_eq_none_iff.mpr ⟨hasks.version, hasks.help⟩
  have hrequest := Arguments.request_eq_ok_iff.mpr ⟨hasks.inOrder, input, source, hnames, rfl⟩
  have hreads : readArguments ("-v" :: line) = .ok arguments.loud := by
    rw [readArguments_verbose, hasks.reads]
    rfl
  have hsource : (arguments.requestFor .calm input).source .calm files = .ok source := by
    rw [hnames.source_eq, hgranted]
  have hloud : (arguments.requestFor .calm input).loud.source .calm files = .ok source := hsource
  have hlisting : (arguments.requestFor .calm input).loud.listing = arguments.has .tokens := rfl
  rw [run_of_arguments hasks.reads hanswer, run_of_arguments hreads hanswer,
    Arguments.request_loud, hrequest]
  dsimp only [Except.map]
  rw [Request.run, Request.run, hloud, hsource, hlisting, Arguments.log]
  dsimp only
  cases htokens : arguments.has .tokens with
  | true =>
      have hlisted : (arguments.requestFor .calm input).listing = true := htokens
      rw [hlisted]
      exact Request.list_loud Surroundings.takes_calm hquiet files source
  | false =>
      have hlisted : (arguments.requestFor .calm input).listing = false := htokens
      rw [hlisted]
      exact Request.compile_loud hquiet files source

/-- A command line that asks for no work is dealt with in the same way, and it is foreseen. -/
theorem run_verbose_of_not_asks (hnone : ∀ arguments source, ¬ Asks line files arguments source) :
    run ("-v" :: line) files = run line files ∧ (run line files).exitCode ≠ .internalError := by
  rw [run, run, readArguments_verbose]
  cases hreads : readArguments line with
  | error fault => exact ⟨rfl, by simp⟩
  | ok arguments =>
      dsimp only [Except.map]
      rw [Arguments.answer?_loud, Arguments.request_loud]
      cases hanswer : arguments.answer? with
      | some text => exact ⟨rfl, by simp⟩
      | none =>
          cases hrequest : arguments.request .calm files with
          | error fault => exact ⟨rfl, by simp⟩
          | ok request =>
              obtain ⟨horder, input, source, hnames, _⟩ :=
                Arguments.request_eq_ok_iff.mp hrequest
              obtain ⟨hversion, hhelp⟩ := Arguments.answer?_eq_none_iff.mp hanswer
              exact absurd ⟨hreads, hversion, hhelp, horder, input, hnames, by cases input <;> rfl⟩
                (hnone arguments source)

/-- Arguments name one source at most. -/
theorem Arguments.Names.unique {arguments : Arguments} {input other : Input}
    {another : Source} (hfirst : arguments.Names surroundings files input source)
    (hsecond : arguments.Names surroundings files other another) : source = another := by
  cases hfirst with
  | file path bytes hoperands _ hfile _ =>
      cases hsecond with
      | file found taken hothers _ hfound _ =>
          obtain rfl := List.singleton_inj.mp (hoperands.symm.trans hothers)
          obtain rfl := Node.file.inj (Except.ok.inj (hfile.symm.trans hfound))
          rfl
      | expression text hothers _ => cases hoperands.symm.trans hothers
  | expression text hoperands hvalue =>
      cases hsecond with
      | file found taken hothers _ _ _ => cases hoperands.symm.trans hothers
      | expression other _ hfound =>
          obtain rfl := Option.some.inj (hvalue.symm.trans hfound)
          rfl

theorem Asks.unique {arguments others : Arguments} {another : Source}
    (hfirst : Asks line files arguments source) (hsecond : Asks line files others another) :
    arguments = others ∧ source = another := by
  obtain rfl := Except.ok.inj (hfirst.reads.symm.trans hsecond.reads)
  obtain ⟨_, hnames, _⟩ := hfirst.names
  obtain ⟨_, hothers, _⟩ := hsecond.names
  exact ⟨rfl, hnames.unique hothers⟩

/-- **A verbose run differs from a quiet one by its log.** With the verbose flag put in front of a
command line that does not have it, a run ends with the same code, prints the same and leaves the
same files, whatever the command line and the files are. It reports what the quiet run reports, with
log lines in front and, after a failure that was not foreseen, the heading of a record of calls
behind. There is a log only of the work on a source. Its tokens are in order those that have been
drawn, and its instructions those that have been emitted, also if the work has failed. -/
theorem verbose_run_differs_by_log (files : FileTree) (hquiet : ¬ Gives line .verbose) :
    let quiet := run line files
    let verbose := run ("-v" :: line) files
    ∃ log : List String,
      verbose.exitCode = quiet.exitCode ∧ verbose.output = quiet.output ∧
      verbose.files = quiet.files ∧
      verbose.errors = textOfLines (log.map ("DEBUG: " ++ ·)) ++ quiet.errors ++
        (if quiet.exitCode = .internalError then Failure.traceHeading else "") ∧
      (log ≠ [] → ∃ arguments source, Asks line files arguments source) ∧
      ∀ arguments source, Asks line files arguments source →
        (arguments.has .tokens = true → headed "Emit: " log = [] ∧
          headed "Scanned " log =
            (Scanner.ofSource source arguments.encoding).scan.drawn.map Token.render) ∧
        (arguments.has .tokens = false → ∃ (drawn : List Token) (emitted : List String),
          let parsing := Session.parsing source arguments.encoding
          parsing.scanners.map Tape.handed = [drawn] ∧ parsing.sinks = [.list emitted] ∧
          headed "Emit: " log = emitted ∧ headed "Scanned " log = drawn.map Token.render) := by
  intro quiet verbose
  by_cases hasks : ∃ arguments source, Asks line files arguments source
  · obtain ⟨arguments, source, hasks⟩ := hasks
    have hgiven : arguments.has .verbose = false := by
      rw [gives_iff hasks.reads] at hquiet
      simpa using hquiet
    have hverbose : verbose = quiet.logged (arguments.log source) := hasks.run_verbose hgiven
    rw [hverbose]
    refine ⟨arguments.log source, rfl, rfl, rfl, rfl, fun _ => ⟨arguments, source, hasks⟩, ?_⟩
    intro others another hothers
    obtain ⟨rfl, rfl⟩ := hasks.unique hothers
    constructor
    · intro htokens
      obtain ⟨hemitted, hdrawn⟩ :=
        filterMap_drawn (Scanner.ofSource source arguments.encoding).scan.drawn
      rw [Arguments.log, if_pos htokens, headed_emit_workLog, headed_scanned_workLog, hemitted,
        hdrawn]
      exact ⟨rfl, rfl⟩
    · intro htokens
      obtain ⟨hscanners, hsinks⟩ := Session.parsing_eq ⟨arguments.encoding, false⟩ source
      refine ⟨_, _, hscanners, hsinks, ?_, ?_⟩
      · rw [Arguments.log, if_neg (by simp [htokens]), headed_emit_workLog, Compilation.lines]
      · rw [Arguments.log, if_neg (by simp [htokens]), headed_scanned_workLog, Compilation.tokens]
  · simp only [not_exists] at hasks
    obtain ⟨hsame, hexit⟩ := run_verbose_of_not_asks hasks
    have hverbose : verbose = quiet.logged [] := by
      rw [Outcome.logged_nil hexit]
      exact hsame
    rw [hverbose]
    exact ⟨[], rfl, rfl, rfl, rfl, fun hlog => absurd rfl hlog,
      fun arguments source hother => absurd hother (hasks arguments source)⟩

/-- A literal after two instructions, under a name that no text can be decoded by, and the listing
of a comment that never closes. -/
theorem verbose_run_differs_by_log_failed_work :
    let undecoded := ["--encoding", "hex", "-e", "let a=1+b\"q\""]
    let unclosed := ["-e", "a /*", "--tokens"]
    (¬ Gives undecoded .verbose ∧ (run undecoded .empty).exitCode = .internalError ∧
      ∃ log, (run ("-v" :: undecoded) .empty).errors = textOfLines (log.map ("DEBUG: " ++ ·)) ++
          (run undecoded .empty).errors ++ Failure.traceHeading ∧
        headed "Emit: " log = ["push 1", "push b"] ∧
        headed "Scanned " log = ["Token(LET, 'let', 1:1)", "Token(IDENT, 'a', 1:5)",
          "Token(EQ, '=', 1:6)", "Token(NUMBER, '1', 1:7)", "Token(PLUS, '+', 1:8)",
          "Token(IDENT, 'b', 1:9)"]) ∧
    ¬ Gives unclosed .verbose ∧ (run unclosed .empty).exitCode = .buildError ∧
      ∃ log, (run ("-v" :: unclosed) .empty).errors = textOfLines (log.map ("DEBUG: " ++ ·)) ++
          (run unclosed .empty).errors ∧
        headed "Emit: " log = [] ∧ headed "Scanned " log = ["Token(IDENT, 'a', 1:1)"] := by
  intro undecoded unclosed
  let literal := "let a=1+b\"q\""
  let source : Source := ⟨"<expr>", literal.toUTF8.toList⟩
  let comment := "a /*"
  have hcompiling : Asks undecoded .empty
      ⟨[.setting .encoding "hex", .setting .expression literal], []⟩ source :=
    .of_expression (by decide +kernel) rfl (by decide +kernel) rfl rfl
  have hlisting : Asks unclosed .empty ⟨[.setting .expression comment, .flag .tokens], []⟩
      ⟨"<expr>", comment.toUTF8.toList⟩ :=
    .of_expression (by decide +kernel) rfl (by decide +kernel) rfl rfl
  have hquiet : ¬ Gives undecoded .verbose := by
    rw [gives_iff hcompiling.reads]
    decide
  have hsilent : ¬ Gives unclosed .verbose := by
    rw [gives_iff hlisting.reads]
    decide
  have hinternal : (run undecoded .empty).exitCode = .internalError := by decide +kernel
  have hrefused : (run unclosed .empty).exitCode = .buildError := by decide +kernel
  obtain ⟨log, _, _, _, herrors, _, hlog⟩ := verbose_run_differs_by_log .empty hquiet
  obtain ⟨other, _, _, _, hreports, _, hother⟩ := verbose_run_differs_by_log .empty hsilent
  obtain ⟨drawn, emitted, htapes, hsinks, hemit, hscanned⟩ := (hlog _ _ hcompiling).2 rfl
  obtain ⟨hnone, hlisted⟩ := (hother _ _ hlisting).1 rfl
  have hlines : (Session.parsing source "hex").sinks = [.list ["push 1", "push b"]] := by
    decide +kernel
  have htokens : ((Session.parsing source "hex").scanners.map Tape.handed).map
      (List.map Token.render) = [["Token(LET, 'let', 1:1)", "Token(IDENT, 'a', 1:5)",
        "Token(EQ, '=', 1:6)", "Token(NUMBER, '1', 1:7)", "Token(PLUS, '+', 1:8)",
        "Token(IDENT, 'b', 1:9)"]] := by
    decide +kernel
  have hscan : (Scanner.ofSource ⟨"<expr>", comment.toUTF8.toList⟩ "utf-8").scan.drawn.map
      Token.render = ["Token(IDENT, 'a', 1:1)"] := by
    decide +kernel
  rw [if_pos hinternal] at herrors
  rw [if_neg (by simp [hrefused]), String.append_empty] at hreports
  have hemitted : [Sink.list emitted] = [.list ["push 1", "push b"]] := hsinks.symm.trans hlines
  have hdrawn := (congrArg (List.map (List.map Token.render)) htapes).symm.trans htokens
  rw [List.singleton_inj, Sink.list.injEq] at hemitted
  rw [List.map_singleton, List.singleton_inj] at hdrawn
  exact ⟨⟨hquiet, hinternal, log, herrors, hemit.trans hemitted, hscanned.trans hdrawn⟩, hsilent,
    hrefused, other, hreports, hnone, hlisted.trans hscan⟩

end CommandLine

end LetLang
