import OptimalAssignment.Hungarian.Stage
import OptimalAssignment.Matching
import OptimalAssignment.Reduction

/-!
# Runs

A run takes one stage after the other until it is done.  Before each search that follows a test or
an adjustment it is asked whether to go on.  The patience of the one who asks is the number of times
that the answer is to go on; without a limit the run is never stopped.

With a tolerance that is not negative the number of stages is bounded by the size alone.  Otherwise
a run may only end by being stopped.
-/

namespace OptimalAssignment.Hungarian

variable {α : Type} {n : Nat}

/-- Why a stage fails. -/
inductive Fault where
  | crowded (line : State.Crowded)
  /-- There is no entry to adjust by. -/
  | allCovered
  deriving DecidableEq, Repr

/-- A run so far: events and the states at which it was asked, newest first. -/
structure Run (α : Type) (n : Nat) where
  state : State α n
  phase : Phase n
  events : List (Event α)
  asked : List (State α n)

inductive Ending where
  | finished
  | cancelled
  | failed (why : Fault)
  /-- More stages than a run of this size has. -/
  | unfinished
  deriving DecidableEq, Repr

inductive Turn (α : Type) (n : Nat) where
  | goesOn (r : Run α n)
  | ends (how : Ending) (r : Run α n)

/-- Whether the run is asked between two phases. -/
def asks : Phase n → Phase n → Bool
  | .test, .search => true
  | .adjust, .search => true
  | _, _ => false

namespace Run

def report (r : Run α n) (e : Event α) : Run α n :=
  { r with events := e :: r.events }

def polls (r : Run α n) : Nat :=
  r.asked.length

/-- Takes over what a stage has left behind. -/
def move (r : Run α n) (m : Moved α n) : Run α n :=
  { r with state := m.state, phase := m.phase, events := m.events.reverse ++ r.events }

def count (r : Run α n) : Run α n :=
  { r with state := { r.state with transitions := r.state.transitions + 1 } }

/-- Goes on from one phase to the next, unless it is asked for the last time. -/
def goOn (patience : Option Nat) (before : Phase n) (r : Run α n) : Turn α n :=
  if asks before r.phase then
    let asked := { r with asked := r.state :: r.asked }
    if patience = some r.polls then .ends .cancelled (asked.report .cancelled)
    else .goesOn asked.count
  else .goesOn r.count

variable [Add α] [Sub α] [LE α] [DecidableLE α]

def turn (patience : Option Nat) (trace : Bool) (r : Run α n) : Turn α n :=
  match r.phase with
  | .done => .ends .finished r
  | .start => goOn patience .start (r.move r.state.start)
  | .test => goOn patience .test (r.move r.state.test)
  | .search =>
      let r := if trace then r.report .searching else r
      goOn patience .search (r.move r.state.search)
  | .flip x =>
      let r := r.move (r.state.flip x)
      match r.state.crowded? with
      | some line => .ends (.failed (.crowded line)) (r.report (.crowded line))
      | none => goOn patience (.flip x) r
  | .adjust =>
      match r.state.adjust? with
      | some m => goOn patience .adjust (r.move m)
      | none => .ends (.failed .allCovered) r

/-- Takes at most so many turns. -/
def play (patience : Option Nat) (trace : Bool) : Nat → Run α n → Ending × Run α n
  | 0, r => (.unfinished, r)
  | turns + 1, r =>
      match r.turn patience trace with
      | .goesOn r => play patience trace turns r
      | .ends how r => (how, r)

end Run

/-- The turns of the longest run of a size, and two for each time that a run without progress is
asked. -/
def turnLimit (n : Nat) (patience : Option Nat) : Nat :=
  3 + (n - 1) * (3 * n + 10) / 2 + 2 * (patience.elim 0 (· + 1))

/-! ## Solving -/

/-- A solve that has ended. -/
structure Solved (α : Type) (n : Nat) where
  ending : Ending
  run : Run α n
  matching : Matching α n n

namespace Solved

def polls (s : Solved α n) : Nat := s.run.polls

/-- The states at which the solve was asked, oldest first. -/
def snapshots (s : Solved α n) : List (State α n) := s.run.asked.reverse

def events (s : Solved α n) : List (Event α) := s.run.events.reverse

end Solved

/-- The stars as a matching. -/
def State.matching [Zero α] [Add α] (scores : Grid α n n) (direction : Direction)
    (s : State α n) : Matching α n n :=
  .ofMatrix scores direction (s.marks.map fun m => if m = .star then 1 else 0)

def begin [Zero α] [Sub α] [LE α] [DecidableLE α] (scores : Grid α n n) (direction : Direction)
    (tolerance : α) : Run α n where
  state := .fresh (scores.normalize direction) tolerance
  phase := .start
  events := [.solving n direction]
  asked := []

def solve [Zero α] [Add α] [Sub α] [LE α] [DecidableLE α] (scores : Grid α n n)
    (direction : Direction) (tolerance : α) (patience : Option Nat) (trace : Bool) : Solved α n :=
  let (ending, run) :=
    (begin scores direction tolerance).play patience trace (turnLimit n patience)
  let matching := run.state.matching scores direction
  let run :=
    if ending = .finished then
      run.report (.solved n matching.cost run.state.augmentations run.state.adjustments)
    else run
  ⟨ending, run, matching⟩

end OptimalAssignment.Hungarian
