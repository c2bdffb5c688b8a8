import LetLang.CommandLine.Run
import LetLang.Proofs.Acceptance

/-!
# What a command line asks for

A command line is refused, or answered by a text, or it asks for work on one source, which its
arguments name as a file or as an expression. The work is to list the tokens of the source or to
compile it. Everything else about a run is known from these cases.
-/

namespace LetLang.CommandLine

variable {surroundings : Surroundings} {line : List String} {files : FileTree}
  {arguments : Arguments} {source : Source}

/-- A name of the table is known whatever is known elsewhere. -/
theorem Surroundings.knows_of_named {name : String} (hnamed : Encoding.named name ≠ .unknown) :
    surroundings.Knows name := Or.inl hnamed

namespace Arguments

/-! ## The values of settings -/

/-- The name of the encoding that arguments choose. -/
def encoding (arguments : Arguments) : String :=
  (arguments.value? .encoding).getD Encoding.defaultName

/-- Whether the values of the settings are in order: the encoding is known, and the output is no
directory and no file that may not be read. -/
structure InOrder (arguments : Arguments) (surroundings : Surroundings) (files : FileTree) :
    Prop where
  encoding : surroundings.Knows arguments.encoding
  output : ∀ path, arguments.value? .output = some path → files.status path ≠ .ok .directory
  mayRead : ∀ path bytes, arguments.value? .output = some path →
    files.status path = .ok (.file bytes) → surroundings.mayRead path = true

theorem mem_settings_of_value? {setting : Setting} {value : String}
    (hvalue : arguments.value? setting = some value) : setting ∈ arguments.settings := by
  have hmem := List.mem_of_getLast? hvalue
  rw [values, List.mem_filterMap] at hmem
  obtain ⟨given, hgiven, hfound⟩ := hmem
  rw [settings, List.mem_eraseDups, List.mem_filterMap]
  refine ⟨given, hgiven, ?_⟩
  cases given with
  | flag flag => cases hfound
  | setting other text =>
      by_cases hother : other = setting
      · rw [hother]
      · simp [hother] at hfound

theorem checkSettings_eq_ok_iff {settings : List Setting} :
    arguments.checkSettings surroundings files settings = .ok () ↔
      ∀ setting ∈ settings, arguments.checkSetting surroundings files setting = .ok () := by
  induction settings with
  | nil => simp [checkSettings]
  | cons setting settings ih =>
      rw [checkSettings, List.forall_mem_cons]
      cases hcheck : arguments.checkSetting surroundings files setting with
      | error fault => simp
      | ok done => simp [ih]

/-- A setting that is not given is in order. -/
theorem checkSetting_of_none {setting : Setting} (hvalue : arguments.value? setting = none) :
    arguments.checkSetting surroundings files setting = .ok () := by
  cases setting <;> simp [checkSetting, hvalue]

theorem checkSetting_encoding : arguments.checkSetting surroundings files .encoding = .ok () ↔
    surroundings.Knows arguments.encoding := by
  cases hvalue : arguments.value? .encoding with
  | none =>
      have hdefault : surroundings.Knows Encoding.defaultName :=
        Surroundings.knows_of_named (by decide)
      simp [checkSetting_of_none hvalue, encoding, hvalue, hdefault]
  | some name =>
      by_cases hname : surroundings.Knows name <;>
        simp [checkSetting, encoding, hvalue, hname]

theorem checkSetting_output : arguments.checkSetting surroundings files .output = .ok () ↔
    ∀ path, arguments.value? .output = some path → files.status path ≠ .ok .directory ∧
      ∀ bytes, files.status path = .ok (.file bytes) → surroundings.mayRead path = true := by
  cases hvalue : arguments.value? .output with
  | none => simp [checkSetting_of_none hvalue]
  | some path =>
      simp only [checkSetting, hvalue, Option.some.injEq, forall_eq']
      cases files.status path with
      | error fault => simp
      | ok node => cases node <;> simp

theorem checkSettings_settings :
    arguments.checkSettings surroundings files arguments.settings = .ok () ↔
      arguments.InOrder surroundings files := by
  rw [checkSettings_eq_ok_iff]
  constructor
  · intro hsettings
    have hcheck (setting : Setting) :
        arguments.checkSetting surroundings files setting = .ok () := by
      cases hvalue : arguments.value? setting with
      | none => exact checkSetting_of_none hvalue
      | some value => exact hsettings setting (mem_settings_of_value? hvalue)
    have houtput := checkSetting_output.mp (hcheck .output)
    exact ⟨checkSetting_encoding.mp (hcheck .encoding), fun path hpath => (houtput path hpath).1,
      fun path bytes hpath => (houtput path hpath).2 bytes⟩
  · intro horder setting _
    cases setting with
    | expression => rfl
    | output =>
        exact checkSetting_output.mpr fun path hpath =>
          ⟨horder.output path hpath, fun bytes => horder.mayRead path bytes hpath⟩
    | encoding => exact checkSetting_encoding.mpr horder.encoding

/-! ## The source -/

/-- The input that arguments name, and its source: the file that is their only operand, called by
its path in normal form, or the expression if there is no operand. -/
inductive Names (arguments : Arguments) (surroundings : Surroundings) (files : FileTree) :
    Input → Source → Prop where
  | file (path : String) (bytes : List Byte) (hoperands : arguments.operands = [path])
      (hvalue : arguments.value? .expression = none)
      (hfile : files.status path = .ok (.file bytes))
      (hright : surroundings.mayRead path = true) :
      Names arguments surroundings files (.file (.parse path)) ⟨(Path.parse path).render, bytes⟩
  | expression (text : String) (hoperands : arguments.operands = [])
      (hvalue : arguments.value? .expression = some text) :
      Names arguments surroundings files (.expression text) ⟨"<expr>", text.toUTF8.toList⟩

/-- The request that arguments make for an input. -/
def requestFor (arguments : Arguments) (surroundings : Surroundings) (input : Input) :
    Request where
  input := input
  output := (arguments.value? .output).map Path.parse
  encoding := surroundings.decoder arguments.encoding
  listing := arguments.has .tokens
  verbose := arguments.has .verbose

theorem read_of_status {path : String} {bytes : List Byte}
    (hstatus : files.status path = .ok (.file bytes)) :
    files.read (.parse path) = .ok bytes := by
  rw [FileTree.status] at hstatus
  split at hstatus
  next => cases hstatus
  next =>
    split at hstatus
    next => cases hstatus
    next =>
      split at hstatus
      next found hfound =>
        split at hstatus
        next => cases hstatus
        next =>
          cases hstatus
          rw [FileTree.read, hfound]
      next hother => exact absurd hstatus (hother bytes)

/-- The source of a request is the one that is named, unless the system does not hand it out. -/
theorem Names.source_eq {input : Input} (hnames : arguments.Names surroundings files input source) :
    (arguments.requestFor surroundings input).source surroundings files =
      match surroundings.refusal? input with
      | none => .ok source
      | some fault => .error (.ofSystem fault) := by
  cases hnames with
  | file path bytes _ _ hfile _ =>
      rw [Request.source, requestFor, Surroundings.refusal?]
      dsimp only
      rw [read_of_status hfile]
      cases surroundings.reading (.parse path) <;> rfl
  | expression text _ _ => rfl

theorem checkInput_eq_ok_iff {path : String} {checked : Path} :
    checkInput surroundings files path = .ok checked ↔
      checked = .parse path ∧ surroundings.mayRead path = true ∧
        ∃ bytes, files.status path = .ok (.file bytes) := by
  unfold checkInput
  cases files.status path with
  | error fault => simp
  | ok node =>
      cases node with
      | directory => simp
      | file bytes =>
          cases surroundings.mayRead path with
          | false => simp
          | true =>
              simp only [if_true, Except.ok.injEq, Node.file.injEq, exists_eq', and_true]
              exact eq_comm

theorem inputFile_eq_ok_iff {file : Option Path} :
    arguments.inputFile surroundings files = .ok file ↔
      (arguments.operands = [] ∧ file = none) ∨
        ∃ path bytes, arguments.operands = [path] ∧ files.status path = .ok (.file bytes) ∧
          surroundings.mayRead path = true ∧ file = some (.parse path) := by
  unfold inputFile
  cases arguments.operands with
  | nil => simpa using eq_comm
  | cons first rest =>
      cases hcheck : checkInput surroundings files first with
      | error fault =>
          have hnone (bytes : List Byte) (hright : surroundings.mayRead first = true) :
              files.status first ≠ .ok (.file bytes) := by
            intro hstatus
            rw [checkInput_eq_ok_iff.mpr ⟨rfl, hright, bytes, hstatus⟩] at hcheck
            cases hcheck
          simp only [hcheck, reduceCtorEq, false_and, List.cons.injEq, false_or, false_iff,
            not_exists, not_and]
          rintro path bytes ⟨rfl, _⟩ hstatus hright
          exact absurd hstatus (hnone bytes hright)
      | ok path =>
          obtain ⟨rfl, hright, bytes, hstatus⟩ := checkInput_eq_ok_iff.mp hcheck
          cases rest with
          | nil => simpa [hcheck, hstatus, hright] using eq_comm
          | cons second rest => simp [hcheck]

/-- One input is chosen exactly if arguments name one. -/
theorem chooseInput_iff {input : Input} :
    (∃ file, arguments.inputFile surroundings files = .ok file ∧
        arguments.chooseInput file = .ok input) ↔
      ∃ source, arguments.Names surroundings files input source := by
  constructor
  · rintro ⟨file, hfile, hinput⟩
    unfold chooseInput at hinput
    rcases inputFile_eq_ok_iff.mp hfile with
      ⟨hoperands, rfl⟩ | ⟨path, bytes, hoperands, hstatus, hright, rfl⟩
    · cases hvalue : arguments.value? .expression with
      | none => simp [hvalue] at hinput
      | some text =>
          rw [hvalue] at hinput
          obtain rfl := Except.ok.inj hinput
          exact ⟨_, .expression text hoperands hvalue⟩
    · cases hvalue : arguments.value? .expression with
      | some text => simp [hvalue] at hinput
      | none =>
          rw [hvalue] at hinput
          obtain rfl := Except.ok.inj hinput
          exact ⟨_, .file path bytes hoperands hvalue hstatus hright⟩
  · rintro ⟨source, hnames⟩
    cases hnames with
    | file path bytes hoperands hvalue hfile hright =>
        refine ⟨some (.parse path), ?_, by simp [chooseInput, hvalue]⟩
        exact inputFile_eq_ok_iff.mpr (Or.inr ⟨path, bytes, hoperands, hfile, hright, rfl⟩)
    | expression text hoperands hvalue =>
        refine ⟨none, ?_, by simp [chooseInput, hvalue]⟩
        exact inputFile_eq_ok_iff.mpr (Or.inl ⟨hoperands, rfl⟩)

/-- Arguments make a request exactly if their settings are in order and they name a source. -/
theorem request_eq_ok_iff {request : Request} :
    arguments.request surroundings files = .ok request ↔
      arguments.InOrder surroundings files ∧
        ∃ input source, arguments.Names surroundings files input source ∧
          request = arguments.requestFor surroundings input := by
  -- the checks follow one another, and a request is made if all of them pass
  have hrequest : arguments.request surroundings files = .ok request ↔
      arguments.checkSettings surroundings files arguments.settings = .ok () ∧
        ∃ input, (∃ file, arguments.inputFile surroundings files = .ok file ∧
          arguments.chooseInput file = .ok input) ∧
            request = arguments.requestFor surroundings input := by
    rw [Arguments.request]
    cases arguments.checkSettings surroundings files arguments.settings with
    | error fault => simp [bind, Except.bind]
    | ok done =>
        cases arguments.inputFile surroundings files with
        | error fault => simp [bind, Except.bind]
        | ok file =>
            cases hchoice : arguments.chooseInput file with
            | error fault => simp [bind, Except.bind, hchoice]
            | ok input =>
                simp [bind, Except.bind, pure, Except.pure, hchoice, requestFor, encoding, eq_comm]
  rw [hrequest, checkSettings_settings]
  simp only [chooseInput_iff, exists_and_right]

theorem answer?_eq_none_iff : arguments.answer? = none ↔
    arguments.has .version = false ∧ arguments.has .help = false := by
  rw [answer?, List.findSome?_eq_none_iff, has, has, List.contains_eq_mem, List.contains_eq_mem,
    decide_eq_false_iff_not, decide_eq_false_iff_not]
  constructor
  · intro hnone
    constructor
    · intro hversion
      cases hnone _ hversion
    · intro hhelp
      cases hnone _ hhelp
  · rintro ⟨hversion, hhelp⟩ given hgiven
    cases given with
    | setting setting value => rfl
    | flag flag =>
        cases flag with
        | tokens => rfl
        | verbose => rfl
        | version => exact absurd hgiven hversion
        | help => exact absurd hgiven hhelp

end Arguments

/-! ## Runs -/

/-- Whether a command line can be taken apart into arguments that are in order, ask for no text such
as the version, and name a source that is handed out. -/
structure Asks (line : List String) (files : FileTree) (arguments : Arguments) (source : Source)
    (surroundings : Surroundings := .calm) : Prop where
  reads : readArguments line = .ok arguments
  version : arguments.has .version = false
  help : arguments.has .help = false
  inOrder : arguments.InOrder surroundings files
  names : ∃ input, arguments.Names surroundings files input source ∧
    surroundings.refusal? input = none

theorem Asks.of_expression {text : String} (hreads : readArguments line = .ok arguments)
    (hanswer : arguments.answer? = none)
    (hsettings : arguments.checkSettings surroundings files arguments.settings = .ok ())
    (hoperands : arguments.operands = []) (hvalue : arguments.value? .expression = some text) :
    Asks line files arguments ⟨"<expr>", text.toUTF8.toList⟩ surroundings := by
  obtain ⟨hversion, hhelp⟩ := Arguments.answer?_eq_none_iff.mp hanswer
  exact ⟨hreads, hversion, hhelp, Arguments.checkSettings_settings.mp hsettings,
    .expression text, .expression text hoperands hvalue, rfl⟩

theorem run_of_arguments (hreads : readArguments line = .ok arguments)
    (hanswer : arguments.answer? = none) :
    run line files surroundings =
      match arguments.request surroundings files with
      | .error fault => ⟨.invalidArguments, "", fault.report, files⟩
      | .ok request => request.run surroundings files := by
  cases hrequest : arguments.request surroundings files <;>
    simp only [run, hreads, hanswer, hrequest]

/-- The work that a command line asks for is done. -/
theorem Asks.run_eq (hasks : Asks line files arguments source surroundings) :
    ∃ input, run line files surroundings =
      if arguments.has .tokens then
        (arguments.requestFor surroundings input).list surroundings files source
      else (arguments.requestFor surroundings input).compile surroundings files source := by
  obtain ⟨input, hnames, hgranted⟩ := hasks.names
  have hanswer := Arguments.answer?_eq_none_iff.mpr ⟨hasks.version, hasks.help⟩
  have hrequest := Arguments.request_eq_ok_iff.mpr ⟨hasks.inOrder, input, source, hnames, rfl⟩
  refine ⟨input, ?_⟩
  rw [run_of_arguments hasks.reads hanswer, hrequest]
  dsimp only
  rw [Request.run, hnames.source_eq, hgranted]
  rfl

end LetLang.CommandLine
