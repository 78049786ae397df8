import OptimalAssignment.Files.Entry
import OptimalAssignment.Files.Packing

/-!
# Views

What a program finds around it when it is started.
-/

namespace OptimalAssignment.Files

structure View where
  /-- What stands at each path. -/
  entry : Path → Entry
  /-- The values of the variables that are set. -/
  environment : String → Option String := fun _ => none
  /-- What unpacks the files of a packing.  Where nothing does they are taken as they are. -/
  unpacker? : Packing → Option Unpacker := fun _ => none

/-- Entries alone, with no variable set and nothing that unpacks. -/
instance : Coe (Path → Entry) View :=
  ⟨fun entry => { entry }⟩

/-- The contents of a file that may be packed. -/
def View.unpack (view : View) (packing : Option Packing) (bytes : List UInt8) :
    Except Damage (List UInt8) :=
  match packing.bind view.unpacker? with
  | some unpack => unpack bytes
  | none => .ok bytes

end OptimalAssignment.Files
