import LetLang.Proofs.PlainText
import LetLang.Proofs.Requests
import LetLang.Proofs.Writing

/-!
# How the work on a source ends

A request to compile ends in one of five ways: the source is at fault, or its instructions are
printed, or they are written to a file and a receipt is printed, or that file holds a part of them,
or it is not opened. What is printed at the end may not be taken whole. Without the log, a run that
succeeds reports nothing, and one that fails reports its failure.
-/

namespace LetLang.CommandLine

variable {surroundings : Surroundings} {files : FileTree} {source : Source} {path : Path}
  {bytes : List Byte}

/-! ## Writing and printing -/

namespace Surroundings

/-- What is written is stored, all or a part of it, or the file is not opened. -/
inductive Wrote (surroundings : Surroundings) (files : FileTree) (path : Path) (bytes : List Byte) :
    FileTree × Option Failure → Prop where
  | whole (place : Place) (hplace : files.target path = .ok place) :
      Wrote surroundings files path bytes (files.set place (.file bytes), none)
  | part (place : Place) (count : Nat) (fault : SystemFault)
      (hplace : files.target path = .ok place)
      (hstoring : surroundings.storing path bytes = some (count, fault)) :
      Wrote surroundings files path bytes
        (files.set place (.file (bytes.take count)), some (.ofSystem fault))
  | unopened (failure : Failure) : Wrote surroundings files path bytes (files, some failure)

theorem wrote (surroundings : Surroundings) (files : FileTree) (path : Path) (bytes : List Byte) :
    Wrote surroundings files path bytes (surroundings.write files path bytes) := by
  rw [write]
  cases hplace : files.target path with
  | error fault => exact .unopened _
  | ok place =>
      cases surroundings.opening path with
      | some fault => exact .unopened _
      | none =>
          cases hstoring : surroundings.storing path bytes with
          | none => exact .whole place hplace
          | some refusal => exact .part place refusal.1 refusal.2 hplace hstoring

theorem write_calm_of_target {place : Place} (hplace : files.target path = .ok place) :
    calm.write files path bytes = (files.set place (.file bytes), none) := by
  rw [write, hplace]
  rfl

theorem write_calm_of_error {fault : FileFault} (hplace : files.target path = .error fault) :
    calm.write files path bytes = (files, some (.ofFileFault fault path)) := by
  rw [write, hplace]

end Surroundings

namespace Request

variable {request : Request} {text : String} {log : List String}

theorem finish_of_taken (htaken : surroundings.printing "" (Text.plain text) = none) :
    request.finish surroundings files log text =
      request.leave files (Text.plain text) log none := by
  simp [finish, Surroundings.print, htaken]

theorem finish_calm : request.finish .calm files log text =
    request.leave files (Text.plain text) log none := finish_of_taken rfl

theorem leave_of_success (hquiet : request.verbose = false) (output : String)
    (log : List String) :
    request.leave files output log none = ⟨.success, output, "", files⟩ := by
  simp [leave, logText, hquiet]

theorem leave_of_failure (hquiet : request.verbose = false) (output : String)
    (log : List String) (failure : Failure) :
    request.leave files output log (some failure) =
      ⟨failure.exitCode, output, Text.plain failure.message ++ "\n", files⟩ := by
  simp [leave, logText, hquiet, Failure.report]

/-! ## Requests -/

/-- The entries of a listing, put together. -/
theorem join_listing (tokens : List Token) :
    String.join (tokens.map fun token => Text.plain (token.listing ++ "\n")) =
      textOfLines (tokens.map fun token => Text.plain token.listing) := by
  rw [textOfLines, List.map_map]
  exact congrArg String.join
    (List.map_congr_left fun (token : Token) _ => Text.plain_line token.listing)

/-- A listing that is taken whole shows each token in plain text. -/
theorem list_of_takes (htakes : surroundings.Takes) (request : Request) (files : FileTree)
    (source : Source) :
    let scan := (Scanner.ofSource source request.encoding).scan
    let tokens := scan.tokens.map (·.1)
    request.list surroundings files source =
      request.leave files (textOfLines (tokens.map fun token => Text.plain token.listing))
        (opening source :: tokens.map (logLine <| .drawn ·)) (scan.fault.map Failure.ofFault) := by
  intro scan tokens
  rw [list, htakes.print, join_listing, List.take_of_length_le (by simp), String.empty_append]
  rfl

/-- How a request to compile a source ends. -/
inductive Compiled (request : Request) (surroundings : Surroundings) (files : FileTree)
    (source : Source) : Outcome → Prop where
  | refused (fault : Fault) (log : List String)
      (hcompile : (LetLang.compile ⟨request.encoding, false⟩ source).outcome = .error fault) :
      Compiled request surroundings files source
        (request.leave files "" log (some (.ofFault fault)))
  | printed (result : Result) (log : List String)
      (hcompile : (LetLang.compile ⟨request.encoding, false⟩ source).outcome = .ok result)
      (houtput : request.output = none) :
      Compiled request surroundings files source
        (request.finish surroundings files log result.text)
  | written (result : Result) (path : Path) (place : Place) (log : List String)
      (hcompile : (LetLang.compile ⟨request.encoding, false⟩ source).outcome = .ok result)
      (houtput : request.output = some path) (hplace : files.target path = .ok place) :
      Compiled request surroundings files source
        (request.finish surroundings (files.set place (.file result.text.toUTF8.toList)) log
          (receipt source.file path))
  | cut (result : Result) (path : Path) (place : Place) (count : Nat) (fault : SystemFault)
      (log : List String)
      (hcompile : (LetLang.compile ⟨request.encoding, false⟩ source).outcome = .ok result)
      (houtput : request.output = some path) (hplace : files.target path = .ok place)
      (hstoring : surroundings.storing path result.text.toUTF8.toList = some (count, fault)) :
      Compiled request surroundings files source
        (request.leave (files.set place (.file (result.text.toUTF8.toList.take count))) "" log
          (some (.ofSystem fault)))
  | unopened (result : Result) (path : Path) (failure : Failure) (log : List String)
      (hcompile : (LetLang.compile ⟨request.encoding, false⟩ source).outcome = .ok result)
      (houtput : request.output = some path)
      (hwrite : surroundings.write files path result.text.toUTF8.toList = (files, some failure)) :
      Compiled request surroundings files source (request.leave files "" log (some failure))

theorem compiled (request : Request) (surroundings : Surroundings) (files : FileTree)
    (source : Source) :
    Compiled request surroundings files source (request.compile surroundings files source) := by
  rw [compile]
  cases hcompile : (LetLang.compile ⟨request.encoding, false⟩ source).outcome with
  | error fault => exact .refused fault _ hcompile
  | ok result =>
      dsimp only
      rw [deliver]
      cases houtput : request.output with
      | none => exact .printed result _ hcompile houtput
      | some path =>
          dsimp only
          have hwrote := surroundings.wrote files path result.text.toUTF8.toList
          generalize hwrite : surroundings.write files path result.text.toUTF8.toList = after
            at hwrote
          cases hwrote with
          | whole place hplace =>
              -- the receipt calls the source by the name that the result has
              obtain ⟨_, _, _, _, _, _, rfl⟩ := outcome_compile_eq_ok_iff.mp hcompile
              exact .written _ path place _ hcompile houtput hplace
          | part place count fault hplace hstoring =>
              exact .cut result path place count fault _ hcompile houtput hplace hstoring
          | unopened failure => exact .unopened result path failure _ hcompile houtput hwrite

end Request

/-- A command line that asks for compilation is dealt with by a request to compile. -/
theorem Asks.exists_compiled {line : List String} {arguments : Arguments}
    (hasks : Asks line files arguments source surroundings)
    (hlisting : arguments.has .tokens = false) :
    ∃ input, run line files surroundings =
      (arguments.requestFor surroundings input).compile surroundings files source := by
  obtain ⟨input, hrun⟩ := hasks.run_eq
  rw [if_neg (by simp [hlisting])] at hrun
  exact ⟨input, hrun⟩

/-- A command line that asks for a listing is dealt with by a request to list. -/
theorem Asks.exists_listed {line : List String} {arguments : Arguments}
    (hasks : Asks line files arguments source surroundings)
    (hlisting : arguments.has .tokens = true) :
    ∃ input, run line files surroundings =
      (arguments.requestFor surroundings input).list surroundings files source := by
  obtain ⟨input, hrun⟩ := hasks.run_eq
  rw [if_pos hlisting] at hrun
  exact ⟨input, hrun⟩

end LetLang.CommandLine
