import OptimalAssignment.Grid
import OptimalAssignment.Log
import OptimalAssignment.Scores.Raw

/-!
# Validation of scores

A score matrix is square and not empty, and all of its scores are finite and not negative.  The
checks have a fixed order, and the first that fails decides.
-/

namespace OptimalAssignment

/-- Why scores are refused. -/
inductive Refusal where
  | irregular (why : Nesting.Irregular)
  | notFlat (dimensions : Nat)
  | notSquare (shape : List Nat)
  | empty
  | notReal (kind : Kind)
  | unconvertible (why : ConversionError)
  | nonFinite
  | negative (row col : Nat) (score : Float)

namespace Refusal

def message : Refusal → String
  | .irregular why => s!"Score matrix could not be read as a 2D array: {why.message}"
  | .notFlat n => s!"Score matrix must be 2D, got an array with {n} dimension(s)."
  | .notSquare shape => s!"Score matrix is not square! Got shape {Tensor.shapeText shape}."
  | .empty => "Score matrix is empty."
  | .notReal kind => s!"Score matrix must hold real numbers, got dtype {kind.name}."
  | .unconvertible why => s!"Score matrix must hold real numbers: {why.message}"
  | .nonFinite => "Score matrix contains NaN or infinite scores!"
  | .negative row col score =>
      s!"Score matrix contains negative scores! First at ({row}, {col}): " ++
        s!"{Decimal.plain.write score}."

end Refusal

/-- A whole number beyond the doubles is no refusal: it stops the conversion without a word. -/
inductive ScoreError where
  | refused (why : Refusal)
  | outOfRange

namespace Scores

def refuse {α : Type} (why : Refusal) : Logged ScoreError α :=
  .refuse why.message (.refused why)

def refuseIf (condition : Bool) (why : Refusal) : Logged ScoreError Unit :=
  if condition then refuse why else pure ()

/-- The side of a square shape. -/
def side (shape : List Nat) : Logged ScoreError Nat :=
  match shape with
  | [r, c] => if r = c then pure r else refuse (.notSquare shape)
  | _ => refuse (.notFlat shape.length)

def convert (a : RawScores) : Logged ScoreError (Tensor Float) :=
  match a.toReals with
  | .ok t => pure t
  | .error .outOfRange => .fail .outOfRange
  | .error why => refuse (.unconvertible why)

/-- All scores are finite and not negative. -/
def checkEntries {n : Nat} (g : Grid Float n n) : Logged ScoreError Unit :=
  if !g.toList.all Float.isFinite then refuse .nonFinite
  else
    match g.select (· < 0.0) with
    | [] => pure ()
    | (i, j) :: _ => refuse (.negative i j (g.get i j))

def validate (input : ScoreInput) : Logged ScoreError (SquareGrid Float) :=
  match input.raw with
  | .error why => refuse (.irregular why)
  | .ok a => do
      let n ← side a.shape
      if h : 0 < n then
        refuseIf (!a.kind.mayBeReal) (.notReal a.kind)
        let t ← convert a
        let g := Grid.ofArray n n 0.0 t.cells
        checkEntries g
        return ⟨n, h, g⟩
      else refuse .empty

end Scores
end OptimalAssignment
