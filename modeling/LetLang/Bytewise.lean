import LetLang.Proofs.Acceptance
import LetLang.Proofs.CursorDraws

/-!
# Compilation byte by byte

A source can be compiled with a cursor on all its bytes in place of a scanner. The statement is read
in the same way, one token after the other, and the same happens: a compilation has no other way to
the bytes than by its draws.
-/

namespace LetLang

namespace Cursor

open Statement

/-- Read on from a stage with a token in hand: what happens, and what keeps the statement from being
read, if anything does. -/
def readFrom (stage : Stage) (cursor : Cursor) (current : Token) : List Event × Option Fault :=
  match hstep : stage.step current with
  | (emitted, .error expectation) =>
      (emitted.map .emitted,
        some (.diagnostic (Statement.unexpected cursor.source current expectation)))
  | (emitted, .ok next) =>
      match hdraw : cursor.next with
      | (_, .error fault) => (emitted.map .emitted, some fault)
      | (after, .ok token) =>
          have := Statement.draws_lt hstep (next_view hdraw)
          match next with
          | .complete target =>
              (emitted.map .emitted ++ [.drawn token, .completed target], none)
          | next =>
              let (events, fault) := readFrom next after token
              (emitted.map .emitted ++ [.drawn token] ++ events, fault)
termination_by Statement.draws cursor.view current

/-- Compile the statement at the start of a source. -/
def compile (options : Options) (source : Source) : Compilation :=
  match (ofSource source options.encoding).next with
  | (_, .error fault) => ⟨[], .error fault⟩
  | (cursor, .ok first) =>
      let (events, fault) := readFrom .start cursor first
      let lines := (events.filterMap Event.instruction?).map Instruction.line
      let tokens := first :: events.filterMap Event.token?
      let outcome :=
        match fault with
        | some fault => .error fault
        | none => .ok ⟨source.file, lines, if options.trace then tokens else []⟩
      ⟨.drawn first :: events, outcome⟩

/-- The same happens when a statement is read with a scanner. -/
theorem readFrom_eq (stage : Stage) (cursor : Cursor) (current : Token) :
    readFrom stage cursor current =
      ((Statement.readFrom stage cursor.view current).events,
        (Statement.readFrom stage cursor.view current).fault) := by
  fun_induction readFrom stage cursor current with
  | case1 stage cursor current emitted expectation hstep =>
      rw [readFrom_of_refused hstep]
      rfl
  | case2 stage cursor current emitted next hstep after fault hdraw =>
      rw [readFrom_of_failed hstep (next_view hdraw)]
  | case3 stage cursor current emitted after token hdraw target hstep =>
      rw [readFrom_of_complete hstep (next_view hdraw)]
  | case4 stage cursor current emitted after token hdraw next hstep hnone events fault hread _ _
      ih =>
      have hopen (target : String) : next ≠ .complete target := by
        rintro rfl
        exact hnone target hstep rfl .rfl
      rw [hread] at ih
      obtain ⟨rfl, rfl⟩ := Prod.mk.inj ih
      rw [readFrom_of_open hstep (next_view hdraw) hopen]
      rfl

/-- **A compilation does byte by byte what it does by runs of bytes.** -/
theorem compile_eq (options : Options) (source : Source) :
    compile options source = LetLang.compile options source := by
  rw [compile, LetLang.compile, ← view_ofSource, ← view_next]
  rcases (ofSource source options.encoding).next with ⟨cursor, fault | first⟩
  · rfl
  · dsimp only
    rw [readFrom_eq]
    rfl

end Cursor

end LetLang
