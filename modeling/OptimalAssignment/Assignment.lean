import OptimalAssignment.Json.Layout
import OptimalAssignment.Matching
import OptimalAssignment.Tensor

/-!
# Assignments

A matching as it is handed out and saved: the matrix may hold any values, of which those that are
not zero count, and the cost is whatever was given for it.
-/

namespace OptimalAssignment

/-- The cells of a table of two or more dimensions whose entry is not zero, by their first two
indices. -/
def Tensor.marked? (t : Tensor Value) : Option (List (Nat × Nat)) :=
  match t.shape with
  | _ :: c :: inner =>
      let width := inner.foldl (· * ·) 1
      some ((List.range t.cells.size).filterMap fun k =>
        if t.cells[k]?.any Value.isTrue then some (k / (c * width), k / width % c) else none)
  | _ => none

structure Assignment where
  matrix : Tensor Value
  cost : Value
  direction : Direction

namespace Assignment

def ofMatching {r c : Nat} (m : Matching Float r c) : Assignment where
  matrix := ⟨[r, c], (m.matrix.toList.map fun (k : Nat) => Value.int k).toArray⟩
  cost := .real m.cost
  direction := m.direction

/-- The length of the first dimension. -/
def size (a : Assignment) : Nat :=
  a.matrix.shape.headD 0

/-- A matrix of fewer than two dimensions has no pairs to speak of. -/
def isTable (a : Assignment) : Bool :=
  2 ≤ a.matrix.dimensions

def pairs (a : Assignment) : List (Nat × Nat) :=
  a.matrix.marked?.getD []

def rowIndices (a : Assignment) : List Nat :=
  a.pairs.map Prod.fst

def colIndices (a : Assignment) : List Nat :=
  a.pairs.map Prod.snd

def document (a : Assignment) : Value :=
  .record
    [("pairs", .list (a.pairs.map fun (i, j) => .list [.int i, .int j])),
      ("cost", a.cost),
      ("direction", .text a.direction.word),
      ("matrix", a.matrix.toValue id)]

/-- The text of the file that an assignment is saved in. -/
def saved (a : Assignment) : String :=
  Json.write a.document

end Assignment
end OptimalAssignment
