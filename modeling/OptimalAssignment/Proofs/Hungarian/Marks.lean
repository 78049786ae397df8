import Mathlib.Data.Fintype.Prod
import OptimalAssignment.Hungarian.Stage
import OptimalAssignment.Proofs.Grid

/-!
# Marks and covers

How a state reads after each of its operations, what its look-ups answer, and how its stars and
covered lines are counted.
-/

namespace OptimalAssignment.Hungarian.State

variable {α : Type} {n : Nat}

/-! ## Reading a state -/

abbrev StarAt (s : State α n) (i j : Fin n) : Prop := s.marks.get i j = .star

abbrev PrimeAt (s : State α n) (i j : Fin n) : Prop := s.marks.get i j = .prime

abbrev RowCovered (s : State α n) (i : Fin n) : Prop := s.rowCovered.get i = true

abbrev ColCovered (s : State α n) (j : Fin n) : Prop := s.colCovered.get j = true

theorem not_primeAt_of_starAt {s : State α n} {i j : Fin n} (h : s.StarAt i j) :
    ¬s.PrimeAt i j := by
  intro hp
  rw [PrimeAt, h] at hp
  cases hp

theorem isOpen_iff {s : State α n} {i j : Fin n} :
    s.isOpen i j = true ↔ ¬s.RowCovered i ∧ ¬s.ColCovered j := by
  simp [isOpen]

theorem marks_mark (s : State α n) (i j : Fin n) (m : Mark) (k l : Fin n) :
    (s.mark i j m).marks.get k l = if i = k ∧ j = l then m else s.marks.get k l :=
  Grid.get_set _ _ _ _ _ _

theorem rowCovered_coverRow (s : State α n) (i k : Fin n) (b : Bool) :
    (s.coverRow i b).rowCovered.get k = if i = k then b else s.rowCovered.get k :=
  vector_get_set _ _ _ _

theorem colCovered_coverColumn (s : State α n) (j k : Fin n) (b : Bool) :
    (s.coverColumn j b).colCovered.get k = if j = k then b else s.colCovered.get k :=
  vector_get_set _ _ _ _

/-! ## Look-ups -/

theorem starAt_of_starInRow? {s : State α n} {i j : Fin n} (h : s.starInRow? i = some j) :
    s.StarAt i j := by
  simpa using List.find?_some h

theorem starInRow?_eq_none {s : State α n} {i : Fin n} :
    s.starInRow? i = none ↔ ∀ j, ¬s.StarAt i j := by
  simp [starInRow?]

theorem starAt_of_starInColumn? {s : State α n} {i j : Fin n} (h : s.starInColumn? j = some i) :
    s.StarAt i j := by
  simpa using List.find?_some h

theorem starInColumn?_eq_none {s : State α n} {j : Fin n} :
    s.starInColumn? j = none ↔ ∀ i, ¬s.StarAt i j := by
  simp [starInColumn?]

theorem isSome_starInColumn? {s : State α n} {j : Fin n} :
    (s.starInColumn? j).isSome = true ↔ ∃ i, s.StarAt i j := by
  simp [starInColumn?, List.find?_isSome]

theorem primeAt_of_primeInRow? {s : State α n} {i j : Fin n} (h : s.primeInRow? i = some j) :
    s.PrimeAt i j := by
  simpa using List.find?_some h

theorem primeInRow?_eq_none {s : State α n} {i : Fin n} :
    s.primeInRow? i = none ↔ ∀ j, ¬s.PrimeAt i j := by
  simp [primeInRow?]

section Zeros

variable [LE α] [DecidableLE α]

theorem isZero_iff {s : State α n} {i j : Fin n} :
    s.isZero i j = true ↔ s.working.get i j ≤ s.tolerance := by
  simp [isZero]

theorem openZero?_some {s : State α n} {i j : Fin n} (h : s.openZero? = some (i, j)) :
    s.working.get i j ≤ s.tolerance ∧ ¬s.RowCovered i ∧ ¬s.ColCovered j := by
  have := List.find?_some h
  rw [Bool.and_eq_true, isZero_iff, isOpen_iff] at this
  exact this

theorem openZero?_eq_none {s : State α n} :
    s.openZero? = none ↔
      ∀ i j, ¬s.RowCovered i → ¬s.ColCovered j → ¬s.working.get i j ≤ s.tolerance := by
  simp only [openZero?, List.find?_eq_none, Bool.and_eq_true, isZero_iff, isOpen_iff, mem_allCells,
    true_implies, Prod.forall]
  constructor
  · intro h i j hi hj hz
    exact h i j ⟨hz, hi, hj⟩
  · rintro h i j ⟨hz, hi, hj⟩
    exact h i j hi hj hz

end Zeros

theorem mem_openCells {s : State α n} {x : Cell n n} :
    x ∈ s.openCells ↔ ¬s.RowCovered x.1 ∧ ¬s.ColCovered x.2 := by
  simp [openCells, isOpen]

theorem allCovered_iff {s : State α n} : s.colCovered.all id = true ↔ ∀ j, s.ColCovered j := by
  rw [Vector.all_eq_true]
  exact ⟨fun h j => h j.val j.isLt, fun h i hi => h ⟨i, hi⟩⟩

/-! ## Counting -/

def starSet (s : State α n) : Finset (Cell n n) :=
  Finset.univ.filter fun x => s.StarAt x.1 x.2

def starredRows (s : State α n) : Finset (Fin n) :=
  Finset.univ.filter fun i => ∃ j, s.StarAt i j

def starredCols (s : State α n) : Finset (Fin n) :=
  Finset.univ.filter fun j => ∃ i, s.StarAt i j

def coveredRows (s : State α n) : Finset (Fin n) :=
  Finset.univ.filter fun i => s.RowCovered i

def coveredCols (s : State α n) : Finset (Fin n) :=
  Finset.univ.filter fun j => s.ColCovered j

@[simp] theorem mem_starSet {s : State α n} {x : Cell n n} : x ∈ s.starSet ↔ s.StarAt x.1 x.2 := by
  simp [starSet]

@[simp] theorem mem_starredRows {s : State α n} {i : Fin n} :
    i ∈ s.starredRows ↔ ∃ j, s.StarAt i j := by
  simp [starredRows]

@[simp] theorem mem_starredCols {s : State α n} {j : Fin n} :
    j ∈ s.starredCols ↔ ∃ i, s.StarAt i j := by
  simp [starredCols]

@[simp] theorem mem_coveredRows {s : State α n} {i : Fin n} :
    i ∈ s.coveredRows ↔ s.RowCovered i := by
  simp [coveredRows]

@[simp] theorem mem_coveredCols {s : State α n} {j : Fin n} :
    j ∈ s.coveredCols ↔ s.ColCovered j := by
  simp [coveredCols]

theorem starredRows_eq_image (s : State α n) : s.starredRows = s.starSet.image Prod.fst := by
  ext i
  simp

theorem starredCols_eq_image (s : State α n) : s.starredCols = s.starSet.image Prod.snd := by
  ext j
  simp

theorem starCount_eq_card (s : State α n) : s.starCount = s.starSet.card := by
  have hset : s.starSet = s.stars.toFinset := by
    ext x
    simp [stars, Grid.mem_select, Grid.entry]
  -- no cell is listed twice
  rw [hset, List.toFinset_card_of_nodup (show s.stars.Nodup from Grid.nodup_select _ _)]
  rfl

end OptimalAssignment.Hungarian.State
