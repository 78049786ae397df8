import OptimalAssignment.Proofs.Hungarian.Optimality

/-!
# Normal forms of scores

In exact arithmetic a normalization leaves no negative entry and a zero in every line.  What it takes
from an entry depends on the row and on the column alone, so permutations are ranked as before, and
there is nothing left to take when it is done again.
-/

namespace OptimalAssignment

variable {α : Type} {r c n : Nat} [AddCommGroup α] [LinearOrder α]

/-! ## Reduced grids -/

/-- No negative entry, and a zero in every line. -/
structure Grid.Reduced (g : Grid α r c) : Prop where
  nonneg : ∀ i j, 0 ≤ g.get i j
  row : ∀ i, ∃ j, g.get i j = 0
  column : ∀ j, ∃ i, g.get i j = 0

namespace Grid

theorem rowLeasts_eq_zero {g : Grid α r c} (hg : ∀ i j, 0 ≤ g.get i j) {i : Fin r}
    (h : ∃ j, g.get i j = 0) : g.rowLeasts.get i = 0 := by
  obtain ⟨j, hj⟩ := h
  obtain ⟨k, hk⟩ := g.rowLeasts_mem i j.pos
  have hle : g.rowLeasts.get i ≤ 0 := hj ▸ rowLeasts_le ordered_linear (fun _ _ => trivial) i j
  exact le_antisymm hle (hk ▸ hg i k)

theorem columnLeasts_eq_zero {g : Grid α r c} (hg : ∀ i j, 0 ≤ g.get i j) {j : Fin c}
    (h : ∃ i, g.get i j = 0) : g.columnLeasts.get j = 0 := by
  obtain ⟨i, hi⟩ := h
  obtain ⟨k, hk⟩ := g.columnLeasts_mem j i.pos
  have hle : g.columnLeasts.get j ≤ 0 :=
    hi ▸ columnLeasts_le ordered_linear (fun _ _ => trivial) i j
  exact le_antisymm hle (hk ▸ hg k j)

/-- There is nothing to take from a reduced grid. -/
theorem Reduced.reduce_eq {g : Grid α r c} (h : g.Reduced) : g.reduce = g := by
  have hrows : g.lowerRows = g := by
    ext i j
    rw [get_lowerRows, rowLeasts_eq_zero h.nonneg (h.row i), sub_zero]
  unfold reduce
  rw [hrows]
  ext i j
  rw [get_lowerColumns, columnLeasts_eq_zero h.nonneg (h.column j), sub_zero]

theorem reduced_reduce [IsOrderedAddMonoid α] (hr : 0 < r) (hc : 0 < c) (g : Grid α r c) :
    g.reduce.Reduced where
  nonneg := g.reduce_nonneg
  row i := by
    obtain ⟨j, hj⟩ := g.rowLeasts_mem i hc
    have hzero : g.lowerRows.get i j = 0 := by rw [get_lowerRows, hj, sub_self]
    have hrows : ∀ k l, 0 ≤ g.lowerRows.get k l := by
      intro k l
      rw [get_lowerRows, sub_nonneg]
      exact rowLeasts_le ordered_linear (fun _ _ => trivial) k l
    -- nothing is taken from a column that holds the zero of a row
    refine ⟨j, ?_⟩
    rw [reduce, get_lowerColumns, columnLeasts_eq_zero hrows ⟨i, hzero⟩, hzero, sub_zero]
  column j := by
    obtain ⟨i, hi⟩ := g.exists_reduce_eq_sub_self j hr
    exact ⟨i, hi.trans (sub_self _)⟩

end Grid

/-! ## Shifted lines -/

/-- The entries are the scores, or their negatives if large scores are better, up to an amount for
each row and one for each column. -/
def Direction.Shifts (direction : Direction) (g w : Grid α r c) (a : Fin r → α) (b : Fin c → α) :
    Prop :=
  match direction with
  | .minimize => ∀ i j, w.get i j = g.get i j - a i - b j
  | .maximize => ∀ i j, w.get i j = a i + b j - g.get i j

namespace Direction.Shifts

variable {g w : Grid α n n} {a b : Fin n → α}

omit [LinearOrder α] in
theorem along_minimize (h : Direction.minimize.Shifts g w a b) (σ : Equiv.Perm (Fin n)) :
    w.along σ = g.along σ - (∑ i, a i + ∑ j, b j) := by
  have hentry : ∀ i j, w.get i j = g.get i j - a i - b j := h
  have hcols : ∑ i, b (σ i) = ∑ j, b j := Equiv.sum_comp σ b
  unfold Grid.along
  simp only [hentry, Finset.sum_sub_distrib, hcols]
  rw [sub_sub]

omit [LinearOrder α] in
theorem along_maximize (h : Direction.maximize.Shifts g w a b) (σ : Equiv.Perm (Fin n)) :
    w.along σ = (∑ i, a i + ∑ j, b j) - g.along σ := by
  have hentry : ∀ i j, w.get i j = a i + b j - g.get i j := h
  have hcols : ∑ i, b (σ i) = ∑ j, b j := Equiv.sum_comp σ b
  unfold Grid.along
  simp only [hentry, Finset.sum_sub_distrib, Finset.sum_add_distrib, hcols]

/-- The amounts are the same for all permutations. -/
theorem ranks [IsOrderedAddMonoid α] {direction : Direction} (h : direction.Shifts g w a b)
    (σ τ : Equiv.Perm (Fin n)) :
    w.along σ ≤ w.along τ ↔ direction.AsGood 0 (g.along σ) (g.along τ) := by
  cases direction with
  | minimize =>
      rw [h.along_minimize, h.along_minimize, sub_le_sub_iff_right]
      show _ ↔ _ ≤ _ + 0
      rw [add_zero]
  | maximize =>
      rw [h.along_maximize, h.along_maximize, sub_le_sub_iff_left]
      show _ ↔ _ - 0 ≤ _
      rw [sub_zero]

end Direction.Shifts

theorem exists_shifts_normalize (direction : Direction) (g : Grid α r c) :
    ∃ a b, direction.Shifts g (g.normalize direction) a b := by
  cases direction with
  | minimize => exact ⟨g.rowLeasts.get, g.lowerRows.columnLeasts.get, g.get_reduce⟩
  | maximize =>
      let costs := g.orient .maximize g.top
      refine ⟨fun i => g.top - costs.rowLeasts.get i, fun j => -costs.lowerRows.columnLeasts.get j,
        fun i j => ?_⟩
      have hcost : costs.get i j = g.top - g.get i j := Grid.get_map _ _ _ _
      show costs.reduce.get i j =
        g.top - costs.rowLeasts.get i + -costs.lowerRows.columnLeasts.get j - g.get i j
      rw [Grid.get_reduce, hcost]
      abel

/-! ## Normalization -/

/-- A normalization of any shape is reduced, shifts the lines of its scores and is its own
normalization; that of a square ranks the permutations as the scores do. -/
theorem every_normalization_is_reduced {α : Type} [AddCommGroup α] [LinearOrder α]
    [IsOrderedAddMonoid α] (direction : Direction) :
    (∀ {r c : Nat}, 0 < r → 0 < c → ∀ g : Grid α r c,
      (g.normalize direction).Reduced ∧
      (∃ a b, direction.Shifts g (g.normalize direction) a b) ∧
      (g.normalize direction).normalize .minimize = g.normalize direction) ∧
    ∀ {n : Nat} (g : Grid α n n) (σ τ : Equiv.Perm (Fin n)),
      (g.normalize direction).along σ ≤ (g.normalize direction).along τ ↔
        direction.AsGood 0 (g.along σ) (g.along τ) := by
  constructor
  · intro r c hr hc g
    have hreduced : (g.normalize direction).Reduced := Grid.reduced_reduce hr hc _
    exact ⟨hreduced, exists_shifts_normalize direction g, hreduced.reduce_eq⟩
  · intro n g σ τ
    obtain ⟨a, b, h⟩ := exists_shifts_normalize direction g
    exact h.ranks σ τ

/-- More columns than rows, and a largest score that is met twice. -/
def wideScores : Grid Int 2 3 := ⟨#v[#v[7, 2, 7], #v[1, 4, 3]]⟩

theorem every_normalization_is_reduced_wide :
    wideScores.normalize .maximize = ⟨#v[#v[0, 5, 0], #v[3, 0, 1]]⟩ ∧
    (wideScores.normalize .maximize).Reduced ∧
    (wideScores.normalize .maximize).normalize .minimize = wideScores.normalize .maximize := by
  obtain ⟨hreduced, -, hagain⟩ :=
    (every_normalization_is_reduced .maximize).1 (by decide) (by decide) wideScores
  exact ⟨by decide, hreduced, hagain⟩

end OptimalAssignment
