import OptimalAssignment.Proofs.Hungarian.InStep

/-!
# Offsets and complements

In exact arithmetic an amount that is added to a whole row is taken away again when the row is
reduced.  So the run does not change, and the cost changes by the amounts alone.  What maximizing
takes from the largest score differs from any other complement of the scores by such an amount, so
maximizing is minimizing a complement.
-/

namespace OptimalAssignment

variable {α : Type} {n : Nat}

section Exact

variable [AddCommGroup α]

namespace Grid

variable {r c : Nat}

/-- An amount is added to each row. -/
def offsetRows (a : Fin r → α) (g : Grid α r c) : Grid α r c :=
  .ofFn fun i j => g.get i j + a i

theorem get_offsetRows (a : Fin r → α) (g : Grid α r c) (i : Fin r) (j : Fin c) :
    (g.offsetRows a).get i j = g.get i j + a i :=
  get_ofFn _ _ _

/-- What is missing up to an amount. -/
def complement (k : α) (g : Grid α r c) : Grid α r c :=
  g.map (k - ·)

theorem get_complement (k : α) (g : Grid α r c) (i : Fin r) (j : Fin c) :
    (g.complement k).get i j = k - g.get i j :=
  get_map _ _ _ _

theorem along_offsetRows (a : Fin n → α) (g : Grid α n n) (σ : Equiv.Perm (Fin n)) :
    (g.offsetRows a).along σ = g.along σ + ∑ i, a i := by
  unfold along
  simp only [get_offsetRows, Finset.sum_add_distrib]

theorem along_complement (k : α) (g : Grid α n n) (σ : Equiv.Perm (Fin n)) :
    (g.complement k).along σ = n • k - g.along σ := by
  unfold along
  simp only [get_complement, Finset.sum_sub_distrib, Finset.sum_const, Finset.card_univ,
    Fintype.card_fin]

variable [LinearOrder α] [IsOrderedAddMonoid α]

theorem rowLeasts_offsetRows (a : Fin r → α) (g : Grid α r c) (i : Fin r) (hc : 0 < c) :
    (g.offsetRows a).rowLeasts.get i = g.rowLeasts.get i + a i := by
  -- adding the same amount everywhere keeps the order within the row
  have hrow : (g.offsetRows a).row i = (g.row i).map (· + a i) := by
    unfold row
    rw [List.map_map]
    exact List.map_congr_left fun j _ => get_offsetRows a g i j
  have hleast : leastOf? ((g.offsetRows a).row i) = (leastOf? (g.row i)).map (· + a i) := by
    rw [hrow]
    exact leastOf?_map fun _ _ _ _ => add_le_add_iff_right _
  rw [leastOf?_row _ _ hc, leastOf?_row _ _ hc] at hleast
  exact Option.some.inj hleast

theorem reduce_offsetRows (a : Fin r → α) (g : Grid α r c) :
    (g.offsetRows a).reduce = g.reduce := by
  have hrows : (g.offsetRows a).lowerRows = g.lowerRows := by
    ext i j
    rw [get_lowerRows, get_lowerRows, rowLeasts_offsetRows a g i j.pos, get_offsetRows,
      add_sub_add_right_eq_sub]
  unfold reduce
  rw [hrows]

theorem reduce_complement (k l : α) (g : Grid α r c) :
    (g.complement k).reduce = (g.complement l).reduce := by
  have hoffset : g.complement k = (g.complement l).offsetRows fun _ => k - l := by
    ext i j
    rw [get_offsetRows, get_complement, get_complement]
    abel
  rw [hoffset, reduce_offsetRows]

theorem normalize_offsetRows (a : Fin r → α) (g : Grid α r c) (direction : Direction) :
    (g.offsetRows a).normalize direction = g.normalize direction := by
  cases direction with
  | minimize => exact reduce_offsetRows a g
  | maximize =>
      show ((g.offsetRows a).complement (g.offsetRows a).top).reduce = (g.complement g.top).reduce
      -- the offsets are taken from the complement, whatever the largest score has become
      have hoffset : (g.offsetRows a).complement (g.offsetRows a).top =
          (g.complement (g.offsetRows a).top).offsetRows fun i => -a i := by
        ext i j
        rw [get_offsetRows, get_complement, get_complement, get_offsetRows]
        abel
      rw [hoffset, reduce_offsetRows]
      exact reduce_complement _ _ g

theorem normalize_complement (k : α) (g : Grid α r c) :
    (g.complement k).normalize .minimize = g.normalize .maximize :=
  reduce_complement k g.top g

end Grid

namespace Hungarian

variable [LinearOrder α] [IsOrderedAddMonoid α] {scores scores' : Grid α n n}
  {direction direction' : Direction} {t : α}

omit [IsOrderedAddMonoid α] in
theorem inStep_of_normalize (h : scores'.normalize direction' = scores.normalize direction)
    (t : α) (patience : Option Nat) (trace : Bool) :
    InStep id patience trace (begin scores direction t) (begin scores' direction' t) := by
  apply inStep_of_silent
  unfold Run.silent begin
  rw [h]

/-- Both solves are finished, and both costs are totals along the same permutation. -/
theorem Solved.Alike.exists_along {trace : Bool} {f : State α n → State α n} (hn : 0 < n)
    (ht : 0 ≤ t) (h : (solve scores direction t none trace).Alike f
      (solve scores' direction' t none trace)) :
    (solve scores direction t none trace).ending = .finished ∧
    (solve scores' direction' t none trace).ending = .finished ∧
    ∃ σ, (solve scores direction t none trace).matching.cost = scores.along σ ∧
      (solve scores' direction' t none trace).matching.cost = scores'.along σ := by
  have hbest := solve_best hn scores direction ht trace
  obtain ⟨σ, hmatrix, -, -, hcost⟩ := hbest.permutation
  refine ⟨hbest.finished, h.ending.trans hbest.finished, σ, hcost, ?_⟩
  rw [← h.matrix] at hmatrix
  rw [← Matching.costOf_of_perm scores' hmatrix, solve_matching]
  rfl

/-- Offsets of the rows are no part of what a solve works with, and they add up in its cost. -/
theorem every_solve_ignores_row_offsets (a : Fin n → α) (scores : Grid α n n)
    (direction : Direction) (t : α) (trace : Bool) :
    (∀ patience,
      InStep id patience trace (begin scores direction t)
        (begin (scores.offsetRows a) direction t) ∧
      (solve scores direction t patience trace).Alike id
        (solve (scores.offsetRows a) direction t patience trace)) ∧
    (0 < n → 0 ≤ t →
      (solve scores direction t none trace).ending = .finished ∧
      (solve (scores.offsetRows a) direction t none trace).ending = .finished ∧
      (solve (scores.offsetRows a) direction t none trace).matching.cost =
        (solve scores direction t none trace).matching.cost + ∑ i, a i) := by
  have hstep : ∀ patience, InStep id patience trace (begin scores direction t)
      (begin (scores.offsetRows a) direction t) := fun patience =>
    inStep_of_normalize (scores.normalize_offsetRows a direction) t patience trace
  refine ⟨fun patience => ⟨hstep patience, (hstep patience).solve_alike fun _ => rfl⟩,
    fun hn ht => ?_⟩
  obtain ⟨hfinished, hfinished', σ, hcost, hcost'⟩ :=
    ((hstep none).solve_alike fun _ => rfl).exists_along hn ht
  rw [hcost, hcost']
  exact ⟨hfinished, hfinished', scores.along_offsetRows a σ⟩

/-- The first two rows have their largest scores in the same column. -/
def tiedScores : Grid Int 3 3 := ⟨#v[#v[2, 2, 5], #v[2, 4, 6], #v[7, 6, 6]]⟩

/-- Offsets of both signs that leave no score negative. -/
theorem every_solve_ignores_row_offsets_tied :
    (∀ i j, 0 ≤ (tiedScores.offsetRows (#v[3, -2, -6].get)).get i j) ∧
    (solve (tiedScores.offsetRows (#v[3, -2, -6].get)) .maximize 1 none false).ending =
      .finished ∧
    (solve (tiedScores.offsetRows (#v[3, -2, -6].get)) .maximize 1 none false).matching.cost =
      (solve tiedScores .maximize 1 none false).matching.cost - 5 := by
  obtain ⟨-, hfinished, hcost⟩ := (every_solve_ignores_row_offsets (#v[3, -2, -6].get) tiedScores
    .maximize 1 false).2 (by decide) (by decide)
  have hsum : ∑ i, #v[3, -2, -6].get i = -5 := by decide
  rw [hsum] at hcost
  exact ⟨by decide, hfinished, hcost⟩

/-- A solve for large scores is the one for small complements, and the two costs add up. -/
theorem every_maximizing_solve_minimizes_the_complement (k : α) (scores : Grid α n n) (t : α)
    (trace : Bool) :
    (∀ patience,
      InStep id patience trace (begin scores .maximize t)
        (begin (scores.complement k) .minimize t) ∧
      (solve scores .maximize t patience trace).Alike id
        (solve (scores.complement k) .minimize t patience trace)) ∧
    (0 < n → 0 ≤ t →
      (solve scores .maximize t none trace).ending = .finished ∧
      (solve (scores.complement k) .minimize t none trace).ending = .finished ∧
      (solve scores .maximize t none trace).matching.cost +
        (solve (scores.complement k) .minimize t none trace).matching.cost = n • k) := by
  have hstep : ∀ patience, InStep id patience trace (begin scores .maximize t)
      (begin (scores.complement k) .minimize t) := fun patience =>
    inStep_of_normalize (scores.normalize_complement k) t patience trace
  refine ⟨fun patience => ⟨hstep patience, (hstep patience).solve_alike fun _ => rfl⟩,
    fun hn ht => ?_⟩
  obtain ⟨hfinished, hfinished', σ, hcost, hcost'⟩ :=
    ((hstep none).solve_alike fun _ => rfl).exists_along hn ht
  rw [hcost, hcost', scores.along_complement k σ]
  exact ⟨hfinished, hfinished', add_sub_cancel _ _⟩

/-- The complement by more than the largest score. -/
theorem every_maximizing_solve_minimizes_the_complement_tied :
    (solve tiedScores .maximize 0 none false).run.state =
      (solve (tiedScores.complement 10) .minimize 0 none false).run.state ∧
    (solve tiedScores .maximize 0 none false).matching.cost +
      (solve (tiedScores.complement 10) .minimize 0 none false).matching.cost = 30 := by
  obtain ⟨halike, hcost⟩ :=
    every_maximizing_solve_minimizes_the_complement 10 tiedScores 0 false
  exact ⟨((halike none).2.state).symm, (hcost (by decide) (by decide)).2.2⟩

end Hungarian
end Exact
end OptimalAssignment
