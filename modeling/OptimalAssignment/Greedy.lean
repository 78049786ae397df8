import OptimalAssignment.Grid
import OptimalAssignment.Matching
import OptimalAssignment.RunSort
import OptimalAssignment.Scores.Validation
import OptimalAssignment.Value.Order

/-!
# Greedy matchings

The cells are sorted by their entries, equal ones row by row.  The first cell is taken, all cells in
its row or its column are dropped, and so on with the rest.
-/

namespace OptimalAssignment.Greedy

variable {α : Type} {r c : Nat}

/-- Takes a cell and drops the cells that share a line with it. -/
def pick : List (Cell r c) → List (Cell r c)
  | [] => []
  | x :: rest => x :: pick (rest.filter fun y => y.1 != x.1 && y.2 != x.2)
termination_by cells => cells.length
decreasing_by
  simp only [List.unattach_filter, List.unattach_attach, List.length_cons]
  exact Nat.lt_succ_of_le (List.length_filter_le _ _)

/-- The cells in the order of their entries. -/
def sorted (le : α → α → Bool) (g : Grid α r c) : List (Cell r c) :=
  (allCells r c).mergeSort fun x y => le (g.entry x) (g.entry y)

def cells (le : α → α → Bool) (g : Grid α r c) : List (Cell r c) :=
  pick (sorted le g)

/-- The greedy matching of scores; if large scores are better, their negatives are sorted. -/
def matching [Zero α] [Add α] [Neg α] [LE α] [DecidableLE α] (scores : Grid α r c)
    (direction : Direction) : Matching α r c :=
  let costs := match direction with
    | .minimize => scores
    | .maximize => scores.map (-·)
  .ofMatrix scores direction (Matching.indicator (cells (· ≤ ·) costs))

/-- Scores are checked like those of an optimal matching. -/
def assign (input : ScoreInput) (direction : Direction) :
    Logged ScoreError ((n : Nat) × Matching Float n n) := do
  let scores ← Scores.validate input
  return ⟨scores.size, matching scores.grid direction⟩

/-! ## Entries of any kind -/

/-- Complex numbers are sorted by their real parts first; parts that are not numbers come last. -/
def complexPrecedes (re im re' im' : Float) : Bool :=
  if re < re' then !im.isNaN || im'.isNaN
  else if re' < re then im'.isNaN && !im.isNaN
  else if re == re' || (re.isNaN && re'.isNaN) then im < im' || (im'.isNaN && !im.isNaN)
  else re'.isNaN

/-- Reals that are not numbers come last, and whole numbers are compared exactly. -/
def precedes : Value → Value → Bool
  | .real x, .real y => x < y || (y.isNaN && !x.isNaN)
  | .complex re im, .complex re' im' => complexPrecedes re im re' im'
  | .text s, .text t => s < t
  | v, w => v.intPrecedes w

/-! ## Entries that may be anything -/

inductive Failure where
  | irregular (why : Nesting.Irregular)
  | unsortable
  | notFlat

def compare (v w : Value) : Except Failure Ordering :=
  match v.precedes? w, w.precedes? v with
  | some true, _ => .ok .lt
  | some false, some true => .ok .gt
  | some false, some false => .ok .eq
  | _, _ => .error .unsortable

/-- The cells of the greedy matching of a table, in the order they are taken. -/
def tableCells (kind : Kind) (g : Grid Value r c) : Except Failure (List (Cell r c)) :=
  if kind = .any then
    (RunSort.sort (fun x y => compare (g.entry x) (g.entry y)) (allCells r c)).map pick
  else .ok (cells (fun v w => !precedes w v) g)

/-- Entries without an order are noticed before the dimensions are. -/
def cellsOf (input : ScoreInput) : Except Failure (List (Nat × Nat)) := do
  let a ← input.raw.mapError .irregular
  match a.shape with
  | [r, c] =>
      let found ← tableCells a.kind (Grid.ofArray r c .null a.cells.cells)
      return found.map fun x => (x.1.val, x.2.val)
  | _ =>
      if a.kind = .any then let _ ← RunSort.sort compare a.cells.cells.toList
      .error .notFlat

end OptimalAssignment.Greedy
