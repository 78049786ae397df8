import OptimalAssignment.Proofs.Greedy
import OptimalAssignment.Proofs.Hungarian.Optimality
import OptimalAssignment.Proofs.Solver

/-!
# Greedy against optimal matchings

A greedy matching is a permutation, so it is never better than an optimal one.  When large scores
are better, each cell of a permutation is no more than a picked cell in one of its lines, and each
picked cell has two lines.  So no permutation has more than twice the greedy total.
-/

namespace OptimalAssignment.Greedy

variable {α : Type} {n : Nat}

section Exact

variable [AddCommGroup α] [LinearOrder α] [IsOrderedAddMonoid α]

/-! ## Twice the greedy total -/

/-- Each entry along `τ` is charged to the entry along `σ` in its row, or to the one in its column. -/
theorem along_le_two_nsmul {g : Grid α n n} (hg : ∀ i j, 0 ≤ g.get i j)
    {σ : Equiv.Perm (Fin n)}
    (hcover : ∀ i j, g.get i j ≤ g.get i (σ i) ∨ g.get i j ≤ g.get (σ.symm j) j)
    (τ : Equiv.Perm (Fin n)) : g.along τ ≤ 2 • g.along σ := by
  have hcols : ∑ i, g.get (σ.symm (τ i)) (τ i) = g.along σ := by
    rw [Equiv.sum_comp τ fun j => g.get (σ.symm j) j, ← Equiv.sum_comp σ]
    simp only [Equiv.symm_apply_apply]
    rfl
  have hcharge : ∀ i, g.get i (τ i) ≤ g.get i (σ i) + g.get (σ.symm (τ i)) (τ i) := by
    intro i
    rcases hcover i (τ i) with hrow | hcol
    · exact hrow.trans (le_add_of_nonneg_right (hg _ _))
    · exact hcol.trans (le_add_of_nonneg_left (hg _ _))
  calc g.along τ
      ≤ ∑ i, (g.get i (σ i) + g.get (σ.symm (τ i)) (τ i)) :=
        Finset.sum_le_sum fun i _ => hcharge i
    _ = g.along σ + g.along σ := by
        rw [Finset.sum_add_distrib, hcols]
        rfl
    _ = 2 • g.along σ := (two_nsmul _).symm

theorem along_le_maximize {scores : Grid α n n} (hscores : ∀ i j, 0 ≤ scores.get i j)
    {σ : Equiv.Perm (Fin n)} (hσ : Matching.IsMatrixOf (matching scores .maximize).matrix σ)
    (τ : Equiv.Perm (Fin n)) : scores.along τ ≤ 2 • scores.along σ := by
  have hcells : ∀ i j, (i, j) ∈ cells (· ≤ ·) (scores.map (-·)) ↔ σ i = j :=
    isMatrixOf_indicator_iff.1 hσ
  apply along_le_two_nsmul hscores
  intro i j
  -- the negatives are sorted, so the picked cell has the larger score
  obtain ⟨⟨k, l⟩, hx, hline, hle⟩ := exists_cells_le (scores.map (-·)) (i, j)
  have hle : scores.get i j ≤ scores.get k l := by
    have hneg : (scores.map (-·)).get k l ≤ (scores.map (-·)).get i j := hle
    rw [Grid.get_map, Grid.get_map] at hneg
    exact neg_le_neg_iff.1 hneg
  have hl : σ k = l := (hcells k l).1 hx
  rcases hline with hrow | hcol
  · obtain rfl : k = i := hrow
    exact .inl (hl ▸ hle)
  · obtain rfl : l = j := hcol
    have hk : σ.symm l = k := σ.symm_apply_eq.2 hl.symm
    exact .inr (hk ▸ hle)

/-! ## Against a solve -/

/-- The greedy matchings are permutations.  For small scores the total is no less than that of a
solve, and for large scores no more and at least half of it, up to the tolerance for each row. -/
structure Compares (scores : Grid α n n) (t : α) (trace : Bool) : Prop where
  permutation : ∀ direction, ∃ σ, Matching.IsMatrixOf (matching scores direction).matrix σ ∧
    (matching scores direction).cost = ∑ i, scores.get i (σ i)
  finished : ∀ direction, (Hungarian.solve scores direction t none trace).ending = .finished
  least : (Hungarian.solve scores .minimize t none trace).matching.cost - n • t ≤
    (matching scores .minimize).cost
  half : (Hungarian.solve scores .maximize t none trace).matching.cost ≤
    2 • (matching scores .maximize).cost
  greatest : (matching scores .maximize).cost ≤
    (Hungarian.solve scores .maximize t none trace).matching.cost + n • t

omit [IsOrderedAddMonoid α] in
theorem exists_along_matching (scores : Grid α n n) (direction : Direction) :
    ∃ σ, Matching.IsMatrixOf (matching scores direction).matrix σ ∧
      (matching scores direction).cost = scores.along σ := by
  obtain ⟨σ, hσ⟩ := exists_perm_matching scores direction
  exact ⟨σ, hσ, Matching.costOf_of_perm scores hσ⟩

theorem compares (hn : 0 < n) {scores : Grid α n n} (hscores : ∀ i j, 0 ≤ scores.get i j) {t : α}
    (ht : 0 ≤ t) (trace : Bool) : Compares scores t trace := by
  have hsolve := fun direction => Hungarian.solve_best hn scores direction ht trace
  obtain ⟨σ, -, hmin⟩ := exists_along_matching scores .minimize
  obtain ⟨τ, hτ, hmax⟩ := exists_along_matching scores .maximize
  obtain ⟨ρ, -, -, -, hcost⟩ := (hsolve .maximize).permutation
  refine ⟨exists_along_matching scores, fun direction => (hsolve direction).finished, ?_, ?_, ?_⟩
  · rw [hmin, sub_le_iff_le_add]
    exact (hsolve .minimize).best σ
  · rw [hmax, hcost]
    exact along_le_maximize hscores hτ ρ
  · rw [hmax, ← sub_le_iff_le_add]
    exact (hsolve .maximize).best τ

end Exact

/-! ## Scores that are checked first -/

theorem assign_ok {input : ScoreInput} {scores : SquareGrid Float}
    (h : (Scores.validate input).result = .ok scores) (direction : Direction) :
    (assign input direction).result = .ok ⟨scores.size, matching scores.grid direction⟩ := by
  show (Logged.bind (Scores.validate input) _).result = _
  unfold Logged.bind
  rw [h]
  rfl

/-- On doubles the cost is the total of the scores in the order of their rows. -/
theorem cost_matching [Zero α] [Add α] [Neg α] [LE α] [DecidableLE α] {scores : Grid α n n}
    {direction : Direction} {σ : Equiv.Perm (Fin n)}
    (h : Matching.IsMatrixOf (matching scores direction).matrix σ) :
    (matching scores direction).cost =
      total ((List.finRange n).map fun i => scores.get i (σ i)) := by
  show total (((matching scores direction).matrix.select (· != 0)).map scores.entry) = _
  rw [Matching.select_of_perm h, List.map_map]
  rfl

/-- A greedy matching of scores that are let through is a permutation; in exact arithmetic it is
between the optimum and half of it, or above the least cost. -/
theorem every_greedy_matching_compares :
    (∀ {α : Type} [AddCommGroup α] [LinearOrder α] [IsOrderedAddMonoid α] {n : Nat}, 0 < n →
      ∀ {scores : Grid α n n}, (∀ i j, 0 ≤ scores.get i j) → ∀ {t : α}, 0 ≤ t → ∀ trace : Bool,
      Compares scores t trace) ∧
    ∀ {input : ScoreInput} {scores : SquareGrid Float},
      (Scores.validate input).result = .ok scores → ∀ direction : Direction,
      ∃ m, (assign input direction).result = .ok ⟨scores.size, m⟩ ∧
        ∃ σ, Matching.IsMatrixOf m.matrix σ ∧
          m.cost = total ((List.finRange scores.size).map fun i => scores.grid.get i (σ i)) := by
  refine ⟨fun hn _ hscores _ ht trace => compares hn hscores ht trace,
    fun {input scores} hvalid direction => ?_⟩
  obtain ⟨σ, hσ⟩ := exists_perm_matching scores.grid direction
  exact ⟨_, assign_ok hvalid direction, σ, hσ, cost_matching hσ⟩

/-- The largest score is in a row and a column that are better matched with each other's rivals. -/
def temptingScores : Grid Int 2 2 := ⟨#v[#v[5, 4], #v[4, 0]]⟩

/-- A greedy matching with less than the largest total, and one of doubles. -/
theorem every_greedy_matching_compares_tempted :
    Compares temptingScores 1 false ∧
    (matching temptingScores .maximize).cost = 5 ∧
    (Hungarian.solve temptingScores .maximize 1 none false).matching.cost = 8 ∧
    ∃ scores, (Scores.validate sampleScores).result = .ok scores ∧
      ∃ σ, Matching.IsMatrixOf (matching scores.grid .maximize).matrix σ := by
  obtain ⟨scores, hvalid⟩ := exists_sampleScores
  obtain ⟨m, hm, σ, hσ, -⟩ := every_greedy_matching_compares.2 hvalid .maximize
  rw [assign_ok hvalid] at hm
  cases hm
  exact ⟨every_greedy_matching_compares.1 (by decide) (by decide) (by decide) false,
    by cbv, by decide +kernel, scores, hvalid, σ, hσ⟩

end OptimalAssignment.Greedy
