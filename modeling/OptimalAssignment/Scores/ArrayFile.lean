import OptimalAssignment.Scores.ArrayFile.Cells
import OptimalAssignment.Tensor

/-!
# Array files

A header and the items it describes, each stored in the same number of bytes.  What follows the last
item is not looked at.
-/

namespace OptimalAssignment.ArrayFile

open Binary

/-! ## How many items there are -/

def sizeValue : Literal → Value
  | .bool b => .bool b
  | .int i => .int i
  | _ => .null

/-- A number beyond 64 bits becomes the least of 64 bits. -/
def clampedWord (x : Float) : Int :=
  match truncate? x with
  | some i => if -pow2 63 ≤ i ∧ i < pow2 63 then i else -pow2 63
  | none => -pow2 63

/-- The lengths as numbers of 64 bits.  Where some need the sign and others do not they meet in the
reals. -/
def words (shape : List Value) : Except Failure (List Int) :=
  match Kind.ofLeaves shape with
  | .any => stop .numberOutOfRange
  | .real _ => .ok (shape.map fun v =>
      match v.toReal with
      | .ok x => clampedWord x
      | .error _ => 0)
  | _ => .ok (shape.map fun v => v.int?.getD 0)

/-- The product of the lengths, in 64 bits. -/
def itemCount (shape : List Literal) : Except Failure Int := do
  return (Item.product (← words (shape.map sizeValue))).bmod (pow2 64)

/-! ## Shapes -/

/-- The lengths of a shape, each a number of 64 bits. -/
def lengths (shape : List Literal) : Except Failure (List Int) :=
  if Nesting.depthLimit < shape.length then complain (.manyDimensions shape.length)
  else shape.mapM fun v => match v with
    | .int i => if -pow2 63 ≤ i ∧ i < pow2 63 then pure i else complain .longDimension
    | _ => stop .dimensionType

/-- The product of the known lengths, and whether one is unknown. -/
def knownProduct (count : Nat) (shape : List Int) : Except Failure (Nat × Bool) :=
  shape.foldlM (fun (known, unknown) (n : Int) => do
    if n < 0 then
      if unknown then complain .twoUnknown else return (known, true)
    else if pow2 63 ≤ known * n.toNat then complain (.mismatch count shape)
    else return (known * n.toNat, unknown)) (1, false)

/-- The lengths of a shape for a number of cells; an unknown one makes up for the others. -/
def resolve (count : Nat) (shape : List Int) : Except Failure (List Nat) := do
  let (known, unknown) ← knownProduct count shape
  if unknown then
    if known = 0 ∨ count % known ≠ 0 then complain (.mismatch count shape)
    else return shape.map fun n => if n < 0 then count / known else n.toNat
  else if count = known then return shape.map Int.toNat
  else complain (.mismatch count shape)

/-- For each cell row by row, its place if the first index varies fastest. -/
def columnPlaces : List Nat → Nat → List Nat
  | [], _ => [0]
  | n :: rest, stride =>
      (List.range n).flatMap fun i => (columnPlaces rest (stride * n)).map (i * stride + ·)

def arrange (columnsFirst : Bool) (shape : List Nat) (cells : Array Float) : Array Float :=
  if columnsFirst then ((columnPlaces shape 1).map fun k => cells[k]?.getD 0.0).toArray
  else cells

/-- The shape of a number of cells.  Where the first index varies fastest the lengths are looked at
from the last to the first. -/
def shapeOf (h : Header) (count : Nat) : Except Failure (List Nat) := do
  if h.columnsFirst then
    return (← resolve count (← lengths h.shape.reverse)).reverse
  else resolve count (← lengths h.shape)

/-! ## Sizes -/

/-- More bytes than these are never at hand. -/
def memoryLimit : Nat := pow2 38

/-- Lengths of zero do not count. -/
def checkSize (size : Nat) (shape : List Nat) : Except Failure Unit :=
  if pow2 63 ≤ size * (shape.filter (· != 0)).foldl (· * ·) 1 then complain .tooLarge else .ok ()

def checkMemory (bytes : Nat) : Except Failure Unit :=
  if memoryLimit < bytes then stop .noMemory else .ok ()

/-- The number of items in the file, of which at most `count` are taken if that is not negative. -/
def available (size : Nat) (count : Int) (bytes : List UInt8) : Except Failure Nat := do
  if size = 0 then
    if count < 0 then complain .negativeCount else return count.toNat
  else if count < 0 then return bytes.length / size
  else
    checkSize size [count.toNat]
    checkMemory (size * count.toNat)
    return min count.toNat (bytes.length / size)

/-! ## Cells -/

def convert (f : CellFormat) (skipped size count : Nat) (bytes : List UInt8) :
    Except Failure (Array Float) :=
  let read (cell : List UInt8) :=
    (realOfCell f ((cell.drop skipped).take f.type.size)).mapError fun why =>
      Failure.told (.cell why)
  -- Cells without a byte are all alike, and none of them is a number.
  let kept := if size = 0 then min count 1 else count
  ((pieces size kept bytes).mapM read).map List.toArray

/-- The cells after a header. -/
def readCells (h : Header) (bytes : List UInt8) : Except Failure (Tensor Float) := do
  let expected ← itemCount h.shape
  if h.item.holdsAnything then complain .anyCells
  let (part, perItem) := h.item.parts
  let found := (← available h.item.size expected bytes) * perItem
  if (found : Int) ≠ expected then complain (.cutOffCells (.tuple h.shape) expected found)
  let shape ← shapeOf h found
  checkSize part.size shape
  match part.onlyCell? with
  | none => stop .manyFields
  | some (f, skipped) =>
      checkSize 8 shape
      checkMemory (8 * found)
      let cells ← convert f skipped part.size found bytes
      return ⟨shape, arrange h.columnsFirst shape cells⟩

def read (bytes : List UInt8) : Except Failure (Tensor Float) := do
  let (h, rest) ← Header.read bytes
  readCells h rest

end OptimalAssignment.ArrayFile
