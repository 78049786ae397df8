import OptimalAssignment.Grid

/-!
# State of a solve

The working matrix, the marks on its cells and the covers on its lines.  The stars are the current
partial assignment, the primes are the candidates of the running search.  An entry counts as zero
if it is at most the tolerance.
-/

namespace OptimalAssignment.Hungarian

inductive Mark where
  | blank
  | star
  | prime
  /-- A code without a meaning of its own. -/
  | other (code : Int)
  deriving DecidableEq, Repr

namespace Mark

def code : Mark → Int
  | .blank => 0
  | .star => 1
  | .prime => 2
  | .other code => code

def ofCode (code : Int) : Mark :=
  if code = 0 then .blank
  else if code = 1 then .star
  else if code = 2 then .prime
  else .other code

end Mark

structure State (α : Type) (n : Nat) where
  working : Grid α n n
  tolerance : α
  marks : Grid Mark n n
  rowCovered : Vector Bool n
  colCovered : Vector Bool n
  augmentations : Nat
  adjustments : Nat
  transitions : Nat
  /-- The amount of the last adjustment. -/
  lastAmount : Option α

namespace State

variable {α : Type} {n : Nat}

/-- No marks, no covers. -/
def fresh (working : Grid α n n) (tolerance : α) : State α n where
  working := working
  tolerance := tolerance
  marks := .replicate n n .blank
  rowCovered := .replicate n false
  colCovered := .replicate n false
  augmentations := 0
  adjustments := 0
  transitions := 0
  lastAmount := none

def isZero [LE α] [DecidableLE α] (s : State α n) (i j : Fin n) : Bool :=
  s.working.get i j ≤ s.tolerance

/-- Whether neither the row nor the column is covered. -/
def isOpen (s : State α n) (i j : Fin n) : Bool :=
  !s.rowCovered.get i && !s.colCovered.get j

def openCells (s : State α n) : List (Cell n n) :=
  (allCells n n).filter fun x => s.isOpen x.1 x.2

/-! ## Marks -/

def stars (s : State α n) : List (Cell n n) :=
  s.marks.select (· == .star)

def primes (s : State α n) : List (Cell n n) :=
  s.marks.select (· == .prime)

def starCount (s : State α n) : Nat :=
  s.stars.length

def starInRow? (s : State α n) (i : Fin n) : Option (Fin n) :=
  (List.finRange n).find? fun j => s.marks.get i j == .star

def starInColumn? (s : State α n) (j : Fin n) : Option (Fin n) :=
  (List.finRange n).find? fun i => s.marks.get i j == .star

def primeInRow? (s : State α n) (i : Fin n) : Option (Fin n) :=
  (List.finRange n).find? fun j => s.marks.get i j == .prime

def mark (s : State α n) (i j : Fin n) (m : Mark) : State α n :=
  { s with marks := s.marks.set i j m }

/-! ## Covers -/

def coverRow (s : State α n) (i : Fin n) (covered : Bool) : State α n :=
  { s with rowCovered := s.rowCovered.set i.val covered i.isLt }

def coverColumn (s : State α n) (j : Fin n) (covered : Bool) : State α n :=
  { s with colCovered := s.colCovered.set j.val covered j.isLt }

def uncoverRows (s : State α n) : State α n :=
  { s with rowCovered := .replicate n false }

def clearCovers (s : State α n) : State α n :=
  { s with rowCovered := .replicate n false, colCovered := .replicate n false }

/-- Covers the columns with a star, and only these. -/
def coverStarredColumns (s : State α n) : State α n :=
  { s with colCovered := Vector.ofFn fun j => (s.starInColumn? j).isSome }

/-! ## Crowded lines -/

inductive Axis where
  | row
  | column
  deriving DecidableEq, Repr

/-- A line with more than one star. -/
structure Crowded where
  axis : Axis
  index : Nat
  deriving DecidableEq, Repr

def Crowded.message (e : Crowded) : String :=
  let line := match e.axis with
    | .row => "Row"
    | .column => "Column"
  s!"{line} {e.index} holds more than one star."

/-- The first index with the largest count, if that is more than one. -/
def peak? (count : Fin n → Nat) : Option (Fin n) :=
  let largest := ((List.finRange n).map count).foldl max 0
  if 1 < largest then (List.finRange n).find? fun k => count k == largest else none

def rowStars (s : State α n) (i : Fin n) : Nat :=
  (s.marks.row i).countP (· == .star)

def columnStars (s : State α n) (j : Fin n) : Nat :=
  (s.marks.column j).countP (· == .star)

/-- Columns are looked at before rows. -/
def crowded? (s : State α n) : Option Crowded :=
  match peak? s.columnStars with
  | some j => some ⟨.column, j⟩
  | none => (peak? s.rowStars).map fun i => ⟨.row, i⟩

end State
end OptimalAssignment.Hungarian
