/-!
# Grids

Rectangular tables of a fixed size.  `get` is the view: every operation says what it does to it, and
two grids with the same view are equal.  Cells are listed row by row.
-/

namespace OptimalAssignment

structure Grid (α : Type) (r c : Nat) where
  rows : Vector (Vector α c) r
  deriving DecidableEq

abbrev Cell (r c : Nat) := Fin r × Fin c

/-- All cells, row by row. -/
def allCells (r c : Nat) : List (Cell r c) :=
  (List.finRange r).flatMap fun i => (List.finRange c).map fun j => (i, j)

@[simp] theorem mem_allCells {r c : Nat} (x : Cell r c) : x ∈ allCells r c := by
  obtain ⟨i, j⟩ := x
  simp [allCells, List.mem_finRange]

namespace Grid

variable {α β : Type} {r c : Nat}

def get (g : Grid α r c) (i : Fin r) (j : Fin c) : α :=
  g.rows[i.val][j.val]

def entry (g : Grid α r c) (x : Cell r c) : α :=
  g.get x.1 x.2

def ofFn (f : Fin r → Fin c → α) : Grid α r c :=
  ⟨Vector.ofFn fun i => Vector.ofFn fun j => f i j⟩

@[simp] theorem get_ofFn (f : Fin r → Fin c → α) (i : Fin r) (j : Fin c) :
    (ofFn f).get i j = f i j := by
  simp [get, ofFn]

@[ext] theorem ext {g h : Grid α r c} (e : ∀ i j, g.get i j = h.get i j) : g = h := by
  obtain ⟨gs⟩ := g
  obtain ⟨hs⟩ := h
  congr 1
  apply Vector.ext
  intro i hi
  apply Vector.ext
  intro j hj
  exact e ⟨i, hi⟩ ⟨j, hj⟩

def replicate (r c : Nat) (a : α) : Grid α r c :=
  ofFn fun _ _ => a

@[simp] theorem get_replicate (a : α) (i : Fin r) (j : Fin c) : (replicate r c a).get i j = a := by
  simp [replicate]

def map (f : α → β) (g : Grid α r c) : Grid β r c :=
  ofFn fun i j => f (g.get i j)

@[simp] theorem get_map (f : α → β) (g : Grid α r c) (i : Fin r) (j : Fin c) :
    (g.map f).get i j = f (g.get i j) := by
  simp [map]

def set (g : Grid α r c) (i : Fin r) (j : Fin c) (a : α) : Grid α r c :=
  ⟨g.rows.set i.val (g.rows[i.val].set j.val a)⟩

theorem get_set (g : Grid α r c) (i i' : Fin r) (j j' : Fin c) (a : α) :
    (g.set i j a).get i' j' = if i = i' ∧ j = j' then a else g.get i' j' := by
  simp only [get, set, Vector.getElem_set, Fin.ext_iff]
  by_cases h : i.val = i'.val
  · by_cases k : j.val = j'.val <;> simp [h, k]
  · simp [h]

/-- The entries row by row. -/
def toList (g : Grid α r c) : List α :=
  (allCells r c).map g.entry

def row (g : Grid α r c) (i : Fin r) : List α :=
  (List.finRange c).map fun j => g.get i j

def column (g : Grid α r c) (j : Fin c) : List α :=
  (List.finRange r).map fun i => g.get i j

def toLists (g : Grid α r c) : List (List α) :=
  (List.finRange r).map g.row

/-- The cells whose entry has a property. -/
def select (p : α → Bool) (g : Grid α r c) : List (Cell r c) :=
  (allCells r c).filter fun x => p (g.entry x)

/-- Reads a table row by row; missing entries are filled up. -/
def ofArray (r c : Nat) (fill : α) (entries : Array α) : Grid α r c :=
  ofFn fun i j => (entries[i.val * c + j.val]?).getD fill

end Grid

/-- A square grid that is not empty. -/
structure SquareGrid (α : Type) where
  size : Nat
  size_pos : 0 < size
  grid : Grid α size size

end OptimalAssignment
