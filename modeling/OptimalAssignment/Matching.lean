import OptimalAssignment.Direction
import OptimalAssignment.Entries
import OptimalAssignment.Grid

/-!
# Matchings

A matching of rows and columns as a matrix of zeros and ones, with the total of the scores at its
ones.
-/

namespace OptimalAssignment

structure Matching (α : Type) (r c : Nat) where
  matrix : Grid Nat r c
  cost : α
  direction : Direction

namespace Matching

variable {α : Type} {r c : Nat}

/-- The scores at the cells whose entry is not zero, added up row by row. -/
def costOf [Zero α] [Add α] (scores : Grid α r c) (matrix : Grid Nat r c) : α :=
  total ((matrix.select (· != 0)).map scores.entry)

def ofMatrix [Zero α] [Add α] (scores : Grid α r c) (direction : Direction)
    (matrix : Grid Nat r c) : Matching α r c :=
  ⟨matrix, costOf scores matrix, direction⟩

/-- One at the given cells, zero elsewhere. -/
def indicator (cells : List (Cell r c)) : Grid Nat r c :=
  .ofFn fun i j => if (i, j) ∈ cells then 1 else 0

/-- The matched cells, row by row. -/
def pairs (m : Matching α r c) : List (Cell r c) :=
  m.matrix.select (· != 0)

def rowIndices (m : Matching α r c) : List (Fin r) :=
  m.pairs.map Prod.fst

def colIndices (m : Matching α r c) : List (Fin c) :=
  m.pairs.map Prod.snd

end Matching
end OptimalAssignment
