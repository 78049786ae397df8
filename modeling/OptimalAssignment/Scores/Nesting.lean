import OptimalAssignment.Tensor

/-!
# Nested lists as arrays

The shape of nested lists, found level by level: a level belongs to the shape as long as all of its
items are lists of one length.  The items below the last such level are the leaves.
-/

namespace OptimalAssignment.Nesting

/-- The greatest number of dimensions. -/
def depthLimit : Nat := 64

def isList : Value → Bool
  | .list _ => true
  | _ => false

def items : Value → List Value
  | .list vs => vs
  | _ => []

/-- The length that all values of a level share, if all of them are lists. -/
def commonLength? : List Value → Option Nat
  | [] => none
  | v :: vs =>
      if (v :: vs).all (fun w => isList w && (items w).length == (items v).length)
      then some (items v).length else none

/-- The lengths of the shared levels, at most `depth` of them, and what lies below. -/
def levels : Nat → List Value → List Nat × List Value
  | 0, vs => ([], vs)
  | depth + 1, vs =>
      match commonLength? vs with
      | some n =>
          let (ns, below) := levels depth (vs.flatMap items)
          (n :: ns, below)
      | none => ([], vs)

/-- Why nested lists are no array. -/
inductive Irregular where
  /-- The lists below a shape are not all alike. -/
  | uneven (shape : List Nat)
  | tooDeep
  deriving DecidableEq, Repr

def Irregular.message : Irregular → String
  | .uneven shape =>
      "setting an array element with a sequence. The requested array has an inhomogeneous shape " ++
        s!"after {shape.length} dimensions. The detected shape was " ++
        s!"{Tensor.shapeText shape} + inhomogeneous part."
  | .tooDeep =>
      "setting an array element with a sequence. The requested array would exceed the maximum " ++
        s!"number of dimension of {depthLimit}."

/-- The array whose cells are the items below the shared levels, lists among them. -/
def spread (v : Value) : Tensor Value :=
  let (shape, leaves) := levels depthLimit [v]
  ⟨shape, leaves.toArray⟩

/-- The array of the leaves of evenly nested lists. -/
def regular (v : Value) : Except Irregular (Tensor Value) :=
  let t := spread v
  if t.cells.any isList then
    .error (if t.dimensions = depthLimit then .tooDeep else .uneven t.shape)
  else .ok t

end OptimalAssignment.Nesting
