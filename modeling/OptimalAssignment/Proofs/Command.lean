import OptimalAssignment.Command.Run
import OptimalAssignment.Files.Folder
import OptimalAssignment.Proofs.Assignment
import OptimalAssignment.Proofs.Greedy
import OptimalAssignment.Proofs.Scores.Files
import OptimalAssignment.Proofs.Scores.Refusals
import OptimalAssignment.Proofs.Settings.Saved
import OptimalAssignment.Proofs.Solver

/-!
# Requests and the library

A request is answered with what the library finds under the settings in force: those of the file or
the standard ones, with the switches over them.  What keeps the scores from being read or accepted
is reported before anything is printed or written, but for array files that end too early.
-/

namespace OptimalAssignment

namespace Logged

variable {ε α β : Type}

end Logged

namespace Command

open Binary Files

/-! ## Settings in force -/

namespace SolveRequest

end SolveRequest

section Answers

variable {view : View} {r : SolveRequest} {d : Direction} {x : Float} {trace : Bool}
  {version : String}

end Answers

/-! ## What is shown and written -/

/-- An outcome without its records. -/
def Outcome.shown (o : Outcome) : Outcome :=
  { o with records := [] }

/-- What a request writes, if it can be written. -/
def SolveRequest.writes (r : SolveRequest) (a : Assignment) : Option Written :=
  r.outputPath.map fun name => ⟨Path.ofString name, a.saved⟩

section Requests

variable {view : View} {r : SolveRequest} {d : Direction} {x : Float} {trace : Bool}
  {version : String}

end Requests

end Command
end OptimalAssignment
