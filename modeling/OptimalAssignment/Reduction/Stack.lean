import OptimalAssignment.Reduction
import OptimalAssignment.Scores.Raw

/-!
# Reduction of stacked tables

Arrays with more than two dimensions are stacks of tables along their first two dimensions.  The
largest score is that of the whole stack, and each table is reduced by itself.
-/

namespace OptimalAssignment.Reduction

inductive Failure where
  | build (why : BuildError)
  | direction (why : Direction.Unknown)
  /-- There is no largest or least entry of nothing. -/
  | nothing
  /-- Rows and columns need two dimensions. -/
  | noColumns

/-- The table at one place of the inner dimensions. -/
def layer (r c width k : Nat) (cells : Array Float) : Grid Float r c :=
  .ofFn fun i j => (cells[(i.val * c + j.val) * width + k]?).getD 0.0

def stack (r c width : Nat) (layers : Array (Grid Float r c)) : Array Float :=
  ((allCells r c).flatMap fun x =>
    (List.range width).map fun k => (layers[k]?.map (·.entry x)).getD 0.0).toArray

/-- Whether the least entries along a dimension are asked of nothing. -/
def lacksEntries (length others : Nat) : Bool :=
  length == 0 && others != 0

def normalize (direction : Direction) (t : Tensor Float) : Except Failure (Tensor Float) :=
  let top := greatestOf? t.cells.toList
  if direction = .maximize && top.isNone then .error .nothing
  else
    match t.shape with
    | r :: c :: inner =>
        let width := inner.foldl (· * ·) 1
        if lacksEntries c (r * width) || lacksEntries r (c * width) then .error .nothing
        else
          let reduced (k : Nat) : Grid Float r c :=
            ((layer r c width k t.cells).orient direction (top.getD 0.0)).reduce
          .ok ⟨t.shape, stack r c width ((List.range width).map reduced).toArray⟩
    | _ => .error .noColumns

/-- The scores are read before the direction. -/
def read (input : ScoreInput) (direction : Value) : Logged Failure (Tensor Float) := do
  let t ← Logged.ofExcept (input.toReals.mapError .build)
  let d ← (Direction.read direction).mapError .direction
  Logged.ofExcept (normalize d t)

end OptimalAssignment.Reduction
