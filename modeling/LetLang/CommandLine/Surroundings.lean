import LetLang.Encoding.Basic
import LetLang.Files.Path

/-!
# Surroundings of a run

A run of the command meets more than its arguments and its files: names of encodings that the
table does not have may be known, rights may be missing, and the system may refuse to hand out a
file, to open one, to keep all of what is stored in it, or to take all of what is printed. Where
it refuses, it says why. A run is a function of its surroundings; those that refuse nothing and
know no names but those of the table are calm.

Every name in the files may be looked up. The error stream and the answers to the flags for help
and for the version are not refused.
-/

namespace LetLang.CommandLine

/-- Why the system refuses what it is asked for, in its words. -/
inductive SystemFault where
  /-- A file is not there, or a right is missing. -/
  | denied (message : String)
  /-- Anything else, such as a device that is full. -/
  | broken (message : String)
  deriving DecidableEq, Repr

structure Surroundings where
  /-- How bytes are read under a name of an encoding that the table does not have. -/
  elsewhere : String → Option (List Byte → Except String String)
  /-- Whether there is a right to read what a path leads to. -/
  mayRead : String → Bool
  /-- The refusal to hand out a file. -/
  reading : Path → Option SystemFault
  /-- The refusal to open a file for writing. -/
  opening : Path → Option SystemFault
  /-- How many bytes of all that a file is to hold are stored, if not all of them are. -/
  storing : Path → List Byte → Option (Nat × SystemFault)
  /-- How many characters of the next piece the output stream takes after what it has taken, if
  it does not take the whole piece. -/
  printing : String → String → Option (Nat × SystemFault)

/-- What the output stream has taken. -/
structure Printed where
  text : String
  /-- How many pieces were taken whole. -/
  pieces : Nat
  /-- Why the next piece was not. -/
  fault : Option SystemFault

/-- The first characters of a text. -/
def leading (count : Nat) (text : String) : String :=
  String.ofList (text.toList.take count)

namespace Surroundings

/-- Surroundings that refuse nothing and know no names but those of the table. -/
def calm : Surroundings where
  elsewhere _ := none
  mayRead _ := true
  reading _ := none
  opening _ := none
  storing _ _ := none
  printing _ _ := none

/-- What a name of an encoding stands for. -/
def decoder (surroundings : Surroundings) (name : String) : Decoder :=
  ⟨name, surroundings.elsewhere name⟩

/-- Whether a name of an encoding is known. -/
def Knows (surroundings : Surroundings) (name : String) : Prop :=
  (surroundings.decoder name).IsKnown

instance (surroundings : Surroundings) (name : String) : Decidable (surroundings.Knows name) :=
  inferInstanceAs (Decidable (Decoder.IsKnown _))

/-- Print pieces one after the other, up to the first that is not taken whole. -/
def print (surroundings : Surroundings) (taken : String) : List String → Printed
  | [] => ⟨taken, 0, none⟩
  | piece :: rest =>
      match surroundings.printing taken piece with
      | some (count, fault) => ⟨taken ++ leading count piece, 0, some fault⟩
      | none =>
          let printed := surroundings.print (taken ++ piece) rest
          { printed with pieces := printed.pieces + 1 }

/-- Whether all that is printed is taken, and all that is written to an opened file is stored. -/
structure Takes (surroundings : Surroundings) : Prop where
  printing : ∀ taken piece, surroundings.printing taken piece = none
  storing : ∀ path bytes, surroundings.storing path bytes = none

theorem takes_calm : calm.Takes := ⟨fun _ _ => rfl, fun _ _ => rfl⟩

theorem Takes.print {surroundings : Surroundings} (htakes : surroundings.Takes) (taken : String)
    (pieces : List String) :
    surroundings.print taken pieces = ⟨taken ++ String.join pieces, pieces.length, none⟩ := by
  induction pieces generalizing taken with
  | nil => simp [Surroundings.print]
  | cons piece rest ih =>
      rw [Surroundings.print, htakes.printing]
      simp [ih, String.append_assoc]

end Surroundings

end LetLang.CommandLine
