import OptimalAssignment.Matching
import OptimalAssignment.Pairs.Selection

/-!
# Pairs of indices

A matching as a list of pairs.  An index counts from the front or, if it is negative, from the end.
-/

namespace OptimalAssignment.Pairs

/-- The matrix of a list of pairs; nothing if an index is out of range. -/
def matrix? (n : Nat) (pairs : List (Int × Int)) : Option (Grid Nat n n) :=
  (pairs.mapM (cell? n)).map Matching.indicator

/-- The cells of a matrix that are not zero, row by row. -/
def ofMatrix {r c : Nat} (g : Grid Nat r c) : List (Cell r c) :=
  g.select (· != 0)

/-! ## Loosely typed pairs -/

inductive Failure where
  | sizeType
  | negativeSize
  /-- A matrix with more cells than numbers count. -/
  | hugeSize
  /-- A matrix with more cells than can be kept. -/
  | noMemory
  | notList
  | notPair
  /-- A pair has more or fewer than two members. -/
  | pairLength
  | selector (why : Selector.Failure)
  /-- An index is out of range, or two lists of indices do not go together. -/
  | badIndex
  deriving DecidableEq, Repr

/-- The members of a value: of a text its characters, of a record its keys. -/
def members? : Value → Option (List Value)
  | .list vs => some vs
  | .text s => some (s.toList.map fun c => .text (String.singleton c))
  | .record fields => some (fields.map fun f => .text f.1)
  | _ => none

def readCells (n : Nat) (v : Value) : Except Failure (List (Cell n n)) :=
  match members? v with
  | none => .error .notPair
  | some [a, b] => do
      let first ← (Selector.ofValue a).mapError .selector
      let second ← (Selector.ofValue b).mapError .selector
      match Selector.cells? n first second with
      | some found => return found
      | none => .error .badIndex
  | some _ => .error .pairLength

/-- The number of cells that can be kept where nothing else is said. -/
def standardMemory : Nat := Binary.pow2 40

/-- The side of a matrix; no more cells can be kept than there is memory for. -/
def readSize (memory : Nat) : Value → Except Failure Nat
  | .int i =>
      if i < 0 then .error .negativeSize
      else if Binary.pow2 63 ≤ i * i then .error .hugeSize
      else if memory < i * i then .error .noMemory
      else .ok i.toNat
  | _ => .error .sizeType

/-- The size is looked at first, then the pairs one by one. -/
def read (size pairs : Value) (memory : Nat := standardMemory) :
    Except Failure ((n : Nat) × Grid Nat n n) := do
  let n ← readSize memory size
  match members? pairs with
  | none => .error .notList
  | some vs => return ⟨n, Matching.indicator (← vs.mapM (readCells n)).flatten⟩

end OptimalAssignment.Pairs
