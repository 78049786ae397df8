import OptimalAssignment.Value

/-!
# Rectangular arrays

An array of any number of dimensions: its shape, and its cells row by row.
-/

namespace OptimalAssignment

structure Tensor (α : Type) where
  shape : List Nat
  cells : Array α

namespace Tensor

variable {α β : Type}

def dimensions (t : Tensor α) : Nat := t.shape.length

def map (f : α → β) (t : Tensor α) : Tensor β := ⟨t.shape, t.cells.map f⟩

/-- Converts every cell; the first cell that fails, row by row, decides. -/
def mapExcept {ε : Type} (f : α → Except ε β) (t : Tensor α) : Except ε (Tensor β) :=
  (t.cells.toList.mapM f).map fun cells => ⟨t.shape, cells.toArray⟩

/-- A shape as messages write it: one length is followed by a comma. -/
def shapeText : List Nat → String
  | [] => "()"
  | [n] => s!"({n},)"
  | ns => "(" ++ ", ".intercalate (ns.map toString) ++ ")"

/-- The cells of a shape from an offset on, as nested lists. -/
def nest (leaf : Nat → Value) : List Nat → Nat → Value
  | [], offset => leaf offset
  | n :: rest, offset =>
      let width := rest.foldl (· * ·) 1
      .list ((List.range n).map fun k => nest leaf rest (offset + k * width))

def toValue (cell : α → Value) (t : Tensor α) : Value :=
  nest (fun k => (t.cells[k]?.map cell).getD .null) t.shape 0

end Tensor
end OptimalAssignment
