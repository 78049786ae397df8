import Mathlib.Data.Fintype.Perm
import OptimalAssignment.Matching
import OptimalAssignment.Proofs.Reduction

/-!
# Matchings of permutations

The matrix of a permutation lists one pair for each row, and its cost is the total along it.
-/

namespace OptimalAssignment

variable {α : Type} {n : Nat}

theorem filter_finRange_eq (a : Fin n) : ((List.finRange n).filter fun j => j = a) = [a] := by
  have hfilter := List.filter_eq (l := List.finRange n) a
  rw [List.count_eq_one_of_mem (List.nodup_finRange n) (List.mem_finRange a)] at hfilter
  exact hfilter

namespace Matching

/-- One in each row where the permutation says, zero elsewhere. -/
def IsMatrixOf (matrix : Grid Nat n n) (σ : Equiv.Perm (Fin n)) : Prop :=
  ∀ i j, matrix.get i j = if σ i = j then 1 else 0

variable {matrix : Grid Nat n n} {σ : Equiv.Perm (Fin n)}

theorem select_of_perm (h : IsMatrixOf matrix σ) :
    matrix.select (· != 0) = (List.finRange n).map fun i => (i, σ i) := by
  have hcell : ∀ i j, (matrix.entry (i, j) != 0) = decide (j = σ i) := by
    intro i j
    show (matrix.get i j != 0) = _
    rw [h]
    by_cases e : j = σ i
    · simp [e]
    · simp [e, Ne.symm e]
  unfold Grid.select allCells
  rw [List.filter_flatMap, ← List.flatMap_pure_eq_map]
  congr 1
  funext i
  rw [List.filter_map]
  simp only [Function.comp_def, hcell, filter_finRange_eq]
  rfl

theorem costOf_of_perm [AddCommGroup α] [LinearOrder α] (scores : Grid α n n)
    (h : IsMatrixOf matrix σ) : costOf scores matrix = scores.along σ := by
  unfold costOf Grid.along
  rw [total_eq_sum, select_of_perm h, List.map_map, ← List.ofFn_eq_map, List.sum_ofFn]
  rfl

end Matching
end OptimalAssignment
