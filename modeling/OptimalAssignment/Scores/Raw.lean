import OptimalAssignment.Scores.Conversion
import OptimalAssignment.Scores.Nesting

/-!
# Raw scores

An array of cells of one kind, before it is known to hold scores.
-/

namespace OptimalAssignment

/-- Every cell is a value of the kind; byte strings are texts with a character for each byte. -/
structure RawScores where
  kind : Kind
  cells : Tensor Value

/-- Why values are no array of a given kind. -/
inductive BuildError where
  | irregular (why : Nesting.Irregular)
  | cell (why : ConversionError)
  deriving DecidableEq, Repr

namespace RawScores

def shape (a : RawScores) : List Nat := a.cells.shape

/-- The cell of a kind that leaves of other kinds join. -/
def joined (k : Kind) (v : Value) : Value :=
  match k.ofValue v with
  | .ok w => w
  | .error _ => v

/-- Evenly nested lists, with the smallest kind that holds their leaves. -/
def ofNested (v : Value) : Except Nesting.Irregular RawScores := do
  let t ← Nesting.regular v
  let kind := Kind.ofLeaves t.cells.toList
  return ⟨kind, t.map (joined kind)⟩

/-- Nested lists with a given kind; cells that may be anything may be lists as well. -/
def build (kind : Kind) (v : Value) : Except BuildError RawScores :=
  if kind = .any then .ok ⟨kind, Nesting.spread v⟩
  else do
    let t ← (Nesting.regular v).mapError .irregular
    let kind := kind.fitted t.cells.toList
    let cells ← (t.mapExcept kind.ofValue).mapError .cell
    return ⟨kind, cells⟩

def toReals (a : RawScores) : Except ConversionError (Tensor Float) :=
  a.cells.mapExcept a.kind.toReal

end RawScores

/-- Scores as callers hand them over. -/
inductive ScoreInput where
  | nested (v : Value)
  | array (a : RawScores)

namespace ScoreInput

def raw : ScoreInput → Except Nesting.Irregular RawScores
  | .nested v => RawScores.ofNested v
  | .array a => .ok a

/-- The cells as doubles, each leaf of nested lists converted by itself. -/
def toReals : ScoreInput → Except BuildError (Tensor Float)
  | .nested v => do
      let t ← (Nesting.regular v).mapError .irregular
      (t.mapExcept Value.toReal).mapError .cell
  | .array a => a.toReals.mapError .cell

end ScoreInput
end OptimalAssignment
