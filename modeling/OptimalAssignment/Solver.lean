import OptimalAssignment.Hungarian.Run
import OptimalAssignment.Scores.Validation

/-!
# Solvers

A solver keeps its settings and the state that its last solve left behind, also when that was
stopped.  Scores that are refused leave the state as it was.
-/

namespace OptimalAssignment

open Hungarian

/-- A state of any size. -/
structure Snapshot where
  size : Nat
  state : State Float size

structure Solver where
  direction : Direction
  tolerance : Float
  trace : Bool
  last : Option Snapshot

inductive SolverError where
  /-- A setting that was not given. -/
  | missing (name : String)
  | direction (why : Direction.Unknown)
  | badTolerance (given : Value)
  /-- A list in the place of the tolerance that has not one member. -/
  | ambiguousTolerance
  | unsuitableTolerance
  | scores (why : ScoreError)
  | cancelled
  | failed (why : Fault)
  | unfinished

namespace Solver

def toleranceMessage (given : Value) : String :=
  s!"zero_tolerance must be a finite value >= 0, got {given.display}"

def refuseTolerance {α : Type} (given : Value) : Logged SolverError α :=
  .refuse (toleranceMessage given) (.badTolerance given)

/-- Whether the only cell of an array is finite; it may stand in a list. -/
def isFinite (v : Value) : Except SolverError Bool :=
  match RawScores.ofNested v with
  | .error _ => .error .ambiguousTolerance
  | .ok a =>
      match a.kind with
      | .any | .text _ | .bytes _ => .error .unsuitableTolerance
      | _ =>
          match a.cells.cells.toList with
          | [.real x] => .ok x.isFinite
          | [.complex re im] => .ok (re.isFinite && im.isFinite)
          | [_] => .ok true
          | _ => .error .ambiguousTolerance

/-- A finite number that is not negative. -/
def readTolerance (v : Value) : Logged SolverError Float :=
  match isFinite v with
  | .error e => .fail e
  | .ok false => refuseTolerance v
  | .ok true =>
      match v, v.toReal with
      | .bool _, .ok x | .int _, .ok x | .real _, .ok x =>
          if x < 0.0 then refuseTolerance v else pure x
      | _, _ => .fail .unsuitableTolerance

/-- The direction is looked at before the tolerance. -/
def create (direction tolerance trace : Value) : Logged SolverError Solver := do
  let direction ← (Direction.read direction).mapError .direction
  let tolerance ← readTolerance tolerance
  return ⟨direction, tolerance, trace.isTrue, none⟩

def standardTolerance : Float := 1e-10

def standard : Solver :=
  ⟨.minimize, standardTolerance, false, none⟩

end Solver

/-! ## Cancellation -/

/-- A check that lets a solve go on for a number of times and then gives an answer. -/
structure CancelCheck where
  after : Nat
  answer : Value

/-- How often the check lets a solve go on, if it ever stops one. -/
def CancelCheck.patience (check : CancelCheck) : Option Nat :=
  if check.answer.isTrue then some check.after else none

/-! ## Solving -/

/-- What a solve answers, how often it was asked to go on, and what it looked like then. -/
structure Attempt where
  solver : Solver
  answer : Logged SolverError ((n : Nat) × Matching Float n n)
  snapshots : List Snapshot

namespace Solver

def result {n : Nat} (s : Solved Float n) : Except SolverError ((n : Nat) × Matching Float n n) :=
  match s.ending with
  | .finished => .ok ⟨n, s.matching⟩
  | .cancelled => .error .cancelled
  | .failed why => .error (.failed why)
  | .unfinished => .error .unfinished

def attempt (solver : Solver) (check : Option CancelCheck) (input : ScoreInput) : Attempt :=
  let validated := Scores.validate input
  match validated.result with
  | .error why => ⟨solver, ⟨validated.records, .error (.scores why)⟩, []⟩
  | .ok scores =>
      let solved := solve scores.grid solver.direction solver.tolerance
        (check.bind CancelCheck.patience) solver.trace
      let events := solved.events.map (Event.toRecord Decimal.plain.write)
      { solver := { solver with last := some ⟨scores.size, solved.run.state⟩ }
        answer := ⟨validated.records ++ events, result solved⟩
        snapshots := solved.snapshots.map fun s => ⟨scores.size, s⟩ }

/-- A solve without a check. -/
def run (solver : Solver) (input : ScoreInput) :
    Logged SolverError ((n : Nat) × Matching Float n n) :=
  (solver.attempt none input).answer

end Solver
end OptimalAssignment
