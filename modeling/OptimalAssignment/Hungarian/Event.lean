import OptimalAssignment.Direction
import OptimalAssignment.Hungarian.State

/-!
# Events of a solve

What a solve reports, in the order it happens, and how each event is written into the log.
-/

namespace OptimalAssignment.Hungarian

inductive Event (α : Type) where
  | solving (size : Nat) (direction : Direction)
  | starred (stars size : Nat)
  | searching
  | augmented (cells : Nat) (row col : Int) (stars size : Nat)
  | adjusted (amount : α)
  | crowded (line : State.Crowded)
  | cancelled
  | solved (size : Nat) (cost : α) (augmentations adjustments : Nat)

namespace Event

variable {α : Type}

/-- What a solve that is asked to stop says. -/
def cancelledMessage : String :=
  "Assignment solve cancelled by caller."

def toRecord (write : α → String) : Event α → Record
  | .solving size direction => .debug s!"Solving {size}x{size} assignment ({direction.word})."
  | .starred stars size => .debug s!"Initial starring selected {stars} of {size} zeros."
  | .searching => .debug "Working matrix:"
  | .augmented cells row col stars size =>
      .debug (s!"Augmented along a chain of {cells} cell(s) from ({row}, {col}); " ++
        s!"{stars} of {size} assigned.")
  | .adjusted amount => .debug s!"Adjusted working matrix by h={write amount}."
  | .crowded line => .error line.message
  | .cancelled => .info cancelledMessage
  | .solved size cost augmentations adjustments =>
      .debug (s!"Solved {size}x{size} assignment with cost {write cost} " ++
        s!"after {augmentations} augmentation(s) and {adjustments} adjustment(s).")

end Event
end OptimalAssignment.Hungarian
