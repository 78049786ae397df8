import OptimalAssignment.Proofs.Hungarian.Optimality
import OptimalAssignment.Proofs.Hungarian.Polls

/-!
# Partial matchings

In exact arithmetic all that a run takes from the costs is taken from whole rows and whole columns.
So the stars, which are zeros among entries that are not negative, match their rows with their
columns as well as can be at any moment, up to the tolerance for each star.
-/

namespace OptimalAssignment

variable {α : Type} {n : Nat}

section Exact

variable [AddCommGroup α]

/-! ## Differences by lines -/

/-- The grids differ by an amount for each row and an amount for each column. -/
def Grid.Parallel {r c : Nat} (g h : Grid α r c) : Prop :=
  ∃ (row : Fin r → α) (col : Fin c → α), ∀ i j, g.get i j = h.get i j + (row i + col j)

namespace Grid.Parallel

variable {r c : Nat} {g h k : Grid α r c}

theorem trans (hgh : g.Parallel h) (hhk : h.Parallel k) : g.Parallel k := by
  obtain ⟨row, col, hg⟩ := hgh
  obtain ⟨row', col', hh⟩ := hhk
  refine ⟨fun i => row i + row' i, fun j => col j + col' j, fun i j => ?_⟩
  rw [hg, hh]
  dsimp only
  abel

theorem reduce [LinearOrder α] (g : Grid α r c) : g.Parallel g.reduce := by
  refine ⟨g.rowLeasts.get, g.lowerRows.columnLeasts.get, fun i j => ?_⟩
  rw [get_reduce]
  abel

theorem shift (s : Hungarian.State α n) (a : α) : s.working.Parallel (s.shift a) := by
  refine ⟨fun i => if s.RowCovered i then 0 else a, fun j => -if s.ColCovered j then a else 0,
    fun i j => ?_⟩
  rw [Hungarian.State.get_shift_eq]
  dsimp only
  abel

end Grid.Parallel

namespace Hungarian

/-! ## Totals over the lines of the stars -/

omit [AddCommGroup α] in
theorem Sound.star_unique [LE α] [DecidableLE α] {p : Phase n} {s : State α n} (h : Sound p s) :
    (∀ {i j k}, s.StarAt i j → s.StarAt i k → j = k) ∧
      ∀ {i k j}, s.StarAt i j → s.StarAt k j → i = k := by
  cases p with
  | start => exact ⟨h.star_row, h.star_col⟩
  | test => exact ⟨h.star_row, h.star_col⟩
  | done => exact ⟨h.1.star_row, h.1.star_col⟩
  | _ => exact ⟨h.1.star_row, h.1.star_col⟩

theorem sum_lines {s : State α n} (hrow : ∀ {i j k}, s.StarAt i j → s.StarAt i k → j = k)
    (hcol : ∀ {i k j}, s.StarAt i j → s.StarAt k j → i = k) (row col : Fin n → α)
    (b : s.starredRows ≃ s.starredCols) :
    ∑ i : s.starredRows, (row i + col (b i)) = ∑ x ∈ s.starSet, (row x.1 + col x.2) := by
  -- however the rows are matched with the columns, each line of a star is met once
  have hrows : ∑ i : s.starredRows, row i = ∑ x ∈ s.starSet, row x.1 := by
    rw [Finset.sum_coe_sort s.starredRows row, s.starredRows_eq_image,
      Finset.sum_image (State.injOn_rows hrow)]
  have hcols : ∑ i : s.starredRows, col (b i) = ∑ x ∈ s.starSet, col x.2 := by
    rw [Equiv.sum_comp b fun j : s.starredCols => col j, Finset.sum_coe_sort s.starredCols col,
      s.starredCols_eq_image, Finset.sum_image (State.injOn_cols hcol)]
  rw [Finset.sum_add_distrib, Finset.sum_add_distrib, hrows, hcols]

variable [LinearOrder α] [IsOrderedAddMonoid α]

theorem sum_stars_le {costs : Grid α n n} {s : State α n} {t : α}
    (hparallel : costs.Parallel s.working) (hnonneg : ∀ i j, 0 ≤ s.working.get i j)
    (hzero : ∀ {i j}, s.StarAt i j → s.working.get i j ≤ t)
    (hrow : ∀ {i j k}, s.StarAt i j → s.StarAt i k → j = k)
    (hcol : ∀ {i k j}, s.StarAt i j → s.StarAt k j → i = k) (b : s.starredRows ≃ s.starredCols) :
    ∑ x ∈ s.starSet, costs.entry x ≤
      ∑ i : s.starredRows, costs.entry (i.val, (b i).val) + s.starCount • t := by
  obtain ⟨row, col, hcosts⟩ := hparallel
  have hstars : ∑ x ∈ s.starSet, s.working.entry x ≤ s.starCount • t := by
    rw [State.starCount_eq_card]
    exact Finset.sum_le_card_nsmul _ _ _ fun x hx => hzero (State.mem_starSet.1 hx)
  have hothers : 0 ≤ ∑ i : s.starredRows, s.working.entry (i.val, (b i).val) :=
    Finset.sum_nonneg fun i _ => hnonneg _ _
  have hentry : ∀ x : Cell n n, costs.entry x = s.working.entry x + (row x.1 + col x.2) :=
    fun x => hcosts x.1 x.2
  calc ∑ x ∈ s.starSet, costs.entry x
      = ∑ x ∈ s.starSet, s.working.entry x + ∑ x ∈ s.starSet, (row x.1 + col x.2) := by
        simp only [hentry, Finset.sum_add_distrib]
    _ ≤ s.starCount • t + ∑ x ∈ s.starSet, (row x.1 + col x.2) := add_le_add_left hstars _
    _ = ∑ i : s.starredRows, (row i + col (b i)) + s.starCount • t := by
        rw [← sum_lines hrow hcol row col b, add_comm]
    _ ≤ ∑ i : s.starredRows, costs.entry (i.val, (b i).val) + s.starCount • t := by
        apply add_le_add_left
        simp only [hentry, Finset.sum_add_distrib]
        exact le_add_of_nonneg_left hothers

/-! ## Runs -/

/-- No other way to match the rows of the stars with their columns is better by more than the
tolerance for each star. -/
def Trusted (scores : Grid α n n) (direction : Direction) (t : α) (s : State α n) : Prop :=
  ∀ b : s.starredRows ≃ s.starredCols,
    direction.AsGood (s.starCount • t) (∑ x ∈ s.starSet, scores.entry x)
      (∑ i : s.starredRows, scores.get i (b i))

variable {scores : Grid α n n} {direction : Direction} {t : α} {patience : Option Nat}
  {trace : Bool} {past : List (Taken α n)} {r : Run α n}

omit [IsOrderedAddMonoid α] in
theorem Course.parallel (h : Course patience trace (begin scores direction t) past r) :
    (scores.costs direction).Parallel r.state.working := by
  induction h with
  | here => exact .reduce _
  | @turn past r s _ hs ih =>
      have hadv := Run.advance_of_turn hs
      by_cases hadj : r.phase = .adjust
      · rw [hadj] at hadv
        obtain ⟨-, a, -, hstate⟩ := hadv.of_adjust
        rw [hstate]
        exact ih.trans (.shift r.state a)
      · rw [(hadv.frame.2.2 hadj).1]
        exact ih

theorem Trusted.of_costs {s : State α n}
    (hrow : ∀ {i j k}, s.StarAt i j → s.StarAt i k → j = k)
    (h : ∀ b : s.starredRows ≃ s.starredCols,
      ∑ x ∈ s.starSet, (scores.costs direction).entry x ≤
        ∑ i : s.starredRows, (scores.costs direction).entry (i.val, (b i).val) +
          s.starCount • t) :
    Trusted scores direction t s := by
  intro b
  have hcard : s.starSet.card = (Finset.univ : Finset s.starredRows).card := by
    rw [Finset.card_univ, Fintype.card_coe, s.starredRows_eq_image,
      Finset.card_image_of_injOn (State.injOn_rows hrow)]
  exact Direction.asGood_of_costs (x := fun x => x)
    (y := fun i : s.starredRows => (i.val, (b i).val)) hcard (h b)

theorem Course.trusted (h : Course patience trace (begin scores direction t) past r) :
    Trusted scores direction t r.state := by
  have hacc := h.accounted_begin
  obtain ⟨hrow, hcol⟩ := (h.sound (begin_sound scores direction t)).star_unique
  have hzero : ∀ {i j}, r.state.StarAt i j → r.state.working.get i j ≤ t := by
    intro i j hs
    have hle := hacc.zero i j (.inl hs)
    rwa [h.tolerance] at hle
  exact .of_costs hrow fun b => sum_stars_le h.parallel hacc.nonneg hzero hrow hcol b

/-- At every moment of a solve, also where it shows its state or is stopped, the stars match their
rows and columns as well as can be. -/
theorem every_partial_matching_is_best (scores : Grid α n n) (direction : Direction) (t : α)
    (patience : Option Nat) (trace : Bool) :
    (∀ {past : List (Taken α n)} {r : Run α n},
      Course patience trace (begin scores direction t) past r →
        Trusted scores direction t r.state) ∧
    Trusted scores direction t (solve scores direction t patience trace).run.state ∧
    ∀ s ∈ (solve scores direction t patience trace).snapshots, Trusted scores direction t s := by
  obtain ⟨past, r, h, hasked, hstate⟩ := solve_reached scores direction t patience trace
  refine ⟨fun h => h.trusted, ?_, fun s hs => ?_⟩
  -- the count of a turn is no part of what is trusted
  · rcases hstate with e | e
    · rw [e]
      exact h.trusted
    · have htrusted : Trusted scores direction t
          (solve scores direction t patience trace).run.state.counted := e ▸ h.trusted
      exact htrusted
  · have hs : s ∈ r.asked := by
      unfold Solved.snapshots at hs
      rwa [hasked, List.mem_reverse] at hs
    obtain ⟨past', r', h', hcounted⟩ := h.of_mem_asked rfl hs
    have htrusted : Trusted scores direction t s.counted := hcounted ▸ h'.trusted
    exact htrusted

/-- Both rows are cheapest in the first column. -/
def contestedCosts : Grid Int 2 2 := ⟨#v[#v[1, 2], #v[3, 6]]⟩

/-- A solve that is stopped with one of two stars, and one that has not started. -/
theorem every_partial_matching_is_best_stopped :
    (solve contestedCosts .minimize 0 (some 0) false).ending = .cancelled ∧
    (solve contestedCosts .minimize 0 (some 0) false).run.state.starCount = 1 ∧
    Trusted contestedCosts .minimize 0
      (solve contestedCosts .minimize 0 (some 0) false).run.state ∧
    Trusted contestedCosts .minimize 0 (begin contestedCosts .minimize 0).state := by
  obtain ⟨hcourse, hrun, -⟩ :=
    every_partial_matching_is_best contestedCosts .minimize 0 (some 0) false
  exact ⟨by decide +kernel, by decide +kernel, hrun, hcourse .here⟩

end Hungarian
end Exact
end OptimalAssignment
