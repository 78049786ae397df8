import OptimalAssignment.Grid
import OptimalAssignment.Scores.Raw

/-!
# Selections of cells

A member of a pair need not be a single index.  Nothing selects all lines and a truth value all or
none, neither of them in a direction of its own.  Lists of indices are taken together, place by
place, and a list of truth values stands for the indices of its true items.
-/

namespace OptimalAssignment

namespace Pairs

/-- The place of an index among `n`. -/
def place? (n : Nat) (i : Int) : Option (Fin n) :=
  if h : 0 ≤ i ∧ i < n then some ⟨i.toNat, by omega⟩
  else if h : i < 0 ∧ -n ≤ i then some ⟨(i + n).toNat, by omega⟩
  else none

def cell? (n : Nat) (pair : Int × Int) : Option (Cell n n) :=
  match place? n pair.1, place? n pair.2 with
  | some i, some j => some (i, j)
  | _, _ => none

end Pairs

/-- What a member of a pair selects. -/
inductive Selector where
  | index (i : Int)
  | all
  | switch (on : Bool)
  | indices (t : Tensor Int)
  | marks (t : Tensor Bool)

namespace Selector

inductive Failure where
  | irregular
  | outOfRange
  | unusable
  deriving DecidableEq, Repr

/-- The integer of 64 bits that is congruent to the number of a leaf. -/
def word (v : Value) : Int :=
  (v.int?.getD 0).bmod (Binary.pow2 64)

def ofIndex (i : Int) : Except Failure Selector :=
  match Kind.ofInt i with
  | .int _ => .ok (.index i)
  | .uint _ => .error .outOfRange
  | _ => .error .unusable

/-- Without leaves a list is an empty list of indices. -/
def ofLeaves (t : Tensor Value) : Except Failure Selector :=
  if t.cells.isEmpty then .ok (.indices (t.map word))
  else
    match Kind.ofLeaves t.cells.toList with
    | .bool => .ok (.marks (t.map Value.isTrue))
    | .int _ | .uint _ => .ok (.indices (t.map word))
    | _ => .error .unusable

def ofValue : Value → Except Failure Selector
  | .null => .ok .all
  | .bool b => .ok (.switch b)
  | .int i => ofIndex i
  | .list items =>
      match Nesting.regular (.list items) with
      | .ok t => ofLeaves t
      | .error _ => .error .irregular
  | _ => .error .unusable

/-! ## Indices of one direction

Shapes and positions are given from the last dimension to the first, so that shorter shapes lack the
ends of longer ones. -/

structure Track where
  lengths : List Nat
  indices : Array Int
  /-- The number of lines there have to be. -/
  needed : Option Nat

def Track.ofTensor (t : Tensor Int) : Track := ⟨t.shape.reverse, t.cells, none⟩

/-- All positions of a shape. -/
def positions : List Nat → List (List Nat)
  | [] => [[]]
  | n :: rest => (positions rest).flatMap fun p => (List.range n).map (· :: p)

/-- The place of a position; along a dimension of length one there is only one. -/
def offset : List Nat → List Nat → Nat
  | n :: rest, k :: position => (if n = 1 then 0 else k) + n * offset rest position
  | _, _ => 0

def Track.at? (t : Track) (position : List Nat) : Option Int :=
  t.indices[offset t.lengths position]?

/-- The indices of the true items, dimension by dimension. -/
def trueIndices (t : Tensor Bool) : List Track :=
  let lengths := t.shape.reverse
  let found := (positions lengths).filter fun p => (t.cells[offset lengths p]?).getD false
  let indexOf (k : Nat) (p : List Nat) : Int := p[k]?.getD 0
  let track (n k : Nat) : Track := ⟨[found.length], (found.map (indexOf k)).toArray, some n⟩
  (lengths.zipIdx.map fun (n, k) => track n k).reverse

def tracks : Selector → List Track
  | .index i => [⟨[], #[i], none⟩]
  | .all | .switch _ => []
  | .indices t => [.ofTensor t]
  | .marks t => trueIndices t

def shapes : Selector → List (List Nat)
  | .all => []
  | .switch on => [[on.toNat]]
  | s => s.tracks.map Track.lengths

/-- A length of one goes with any other. -/
def joinLengths (m n : Nat) : Option Nat :=
  if m = n ∨ n = 1 then some m else if m = 1 then some n else none

def joinShapes : List Nat → List Nat → Option (List Nat)
  | [], shape | shape, [] => some shape
  | m :: ms, n :: ns => do
      let k ← joinLengths m n
      return k :: (← joinShapes ms ns)

/-- The lines of a direction at a position; all of them if nothing selects them. -/
def linesAt (n : Nat) (t : Option Track) (position : List Nat) : Option (List (Fin n)) :=
  match t with
  | none => some (List.finRange n)
  | some t => ((t.at? position).bind (Pairs.place? n)).map fun i => [i]

/-- Every index is in range, whether it is used or not. -/
def Track.fits (n : Nat) (t : Track) : Bool :=
  t.needed.all (· == n) && t.indices.all fun i => (Pairs.place? n i).isSome

/-- The cells that two selectors select together, position by position. -/
def spread? (n : Nat) (first second : Selector) : Option (List (Cell n n)) := do
  let ts := first.tracks ++ second.tracks
  if 2 < ts.length || !ts.all (Track.fits n) then none
  let shape ← (first.shapes ++ second.shapes).foldlM joinShapes []
  let found ← (positions shape).mapM fun p => do
    let rows ← linesAt n ts[0]? p
    let cols ← linesAt n ts[1]? p
    return rows.flatMap fun i => cols.map fun j => (i, j)
  return found.flatten

/-- Two indices select a single cell. -/
def cells? (n : Nat) (first second : Selector) : Option (List (Cell n n)) :=
  match first, second with
  | .index i, .index j => (Pairs.cell? n (i, j)).map ([·])
  | _, _ => spread? n first second

end Selector
end OptimalAssignment
