import OptimalAssignment.Entries
import OptimalAssignment.Hungarian.Chain
import OptimalAssignment.Hungarian.Event

/-!
# Stages

A solve goes from phase to phase; each stage changes the state and names the phase that follows.
The start stars independent zeros.  The test ends the solve once every column is covered.  The
search primes a zero that is not covered.  A flip exchanges stars and primes along a chain, which
makes one star more.  An adjustment makes new zeros when the search has found none.
-/

namespace OptimalAssignment.Hungarian

inductive Phase (n : Nat) where
  | start
  | test
  | search
  | flip (cell : Cell n n)
  | adjust
  | done
  deriving DecidableEq, Repr

/-- What a stage leaves behind. -/
structure Moved (α : Type) (n : Nat) where
  state : State α n
  phase : Phase n
  events : List (Event α)

namespace State

variable {α : Type} {n : Nat}

/-! ## Start -/

section Start

variable [LE α] [DecidableLE α]

/-- The first zero of a row in a column that is not covered. -/
def freeZero? (s : State α n) (i : Fin n) : Option (Fin n) :=
  (List.finRange n).find? fun j => !s.colCovered.get j && s.isZero i j

def starRow (s : State α n) (i : Fin n) : State α n :=
  if s.rowCovered.get i then s
  else
    match s.freeZero? i with
    | none => s
    | some j => ((s.mark i j .star).coverRow i true).coverColumn j true

/-- The covers of the columns stay, those of the rows do not. -/
def start (s : State α n) : Moved α n :=
  let starred := ((List.finRange n).foldl starRow s).uncoverRows
  ⟨starred, .test, [.starred starred.starCount n]⟩

end Start

/-! ## Test -/

def test (s : State α n) : Moved α n :=
  ⟨s, if s.colCovered.all id then .done else .search, []⟩

/-! ## Search -/

section Search

variable [LE α] [DecidableLE α]

/-- The first zero that is not covered. -/
def openZero? (s : State α n) : Option (Cell n n) :=
  (allCells n n).find? fun x => s.isZero x.1 x.2 && s.isOpen x.1 x.2

/-- If the row of the new prime holds a star, the cover moves from the star's column to the row. -/
def search (s : State α n) : Moved α n :=
  match s.openZero? with
  | none => ⟨s, .adjust, []⟩
  | some (i, j) =>
      let primed := s.mark i j .prime
      match primed.starInRow? i with
      | none => ⟨primed, .flip (i, j), []⟩
      | some k => ⟨(primed.coverColumn k false).coverRow i true, .search, []⟩

end Search

/-! ## Flip -/

/-- Stars on the chain are removed and primes on it become stars; other primes are dropped. -/
def exchange (s : State α n) (cells : List (Cell n n)) : State α n :=
  { s with
    marks := .ofFn fun i j =>
      match s.marks.get i j with
      | .star => if cells.contains (i, j) then .blank else .star
      | .prime => if cells.contains (i, j) then .star else .blank
      | m => m }

/-- The cell is reported as it was given. -/
def flipFrom (s : State α n) (row col : Int) (x : Cell n n) : Moved α n :=
  let cells := s.chain x
  let flipped := ((s.exchange cells).clearCovers).coverStarredColumns
  let s := { flipped with augmentations := s.augmentations + 1 }
  ⟨s, .test, [.augmented cells.length row col s.starCount n]⟩

def flip (s : State α n) (x : Cell n n) : Moved α n :=
  s.flipFrom x.1 x.2 x

/-! ## Adjustment -/

section Adjust

variable [Add α] [Sub α] [LE α] [DecidableLE α]

/-- The least entry that is not covered. -/
def leastOpen? (s : State α n) : Option α :=
  leastOf? (s.openCells.map s.working.entry)

/-- The amount is added to the covered columns and then taken from the rows without cover. -/
def shift (s : State α n) (amount : α) : Grid α n n :=
  .ofFn fun i j =>
    let x := s.working.get i j
    let x := if s.colCovered.get j then x + amount else x
    if s.rowCovered.get i then x else x - amount

/-- Nothing if every entry is covered. -/
def adjust? (s : State α n) : Option (Moved α n) :=
  s.leastOpen?.map fun amount =>
    ⟨{ s with
        working := s.shift amount
        adjustments := s.adjustments + 1
        lastAmount := some amount },
      .search, [.adjusted amount]⟩

end Adjust

end State
end OptimalAssignment.Hungarian
