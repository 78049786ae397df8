import OptimalAssignment.Proofs.Hungarian.Phases

/-!
# How every state of a run is marked

What the marks and covers of a state say about each other in each phase, without the ranks that the
proof needs.
-/

namespace OptimalAssignment.Hungarian

variable {α : Type} {n : Nat}

structure Marked (p : Phase n) (s : State α n) : Prop where
  star_row : ∀ {i j k}, s.StarAt i j → s.StarAt i k → j = k
  star_col : ∀ {i k j}, s.StarAt i j → s.StarAt k j → i = k
  /-- Exactly one line of a star is covered. -/
  star_cover : ∀ {i j}, s.StarAt i j → (s.RowCovered i ↔ ¬s.ColCovered j)
  covered_row : ∀ {i}, s.RowCovered i →
    (∃ j, s.StarAt i j) ∧ ∃ j, s.PrimeAt i j ∧ (∀ k, s.PrimeAt i k → k = j) ∧ ¬s.ColCovered j
  uncovered_row : ∀ {i j}, ¬s.RowCovered i → s.PrimeAt i j → p = .flip (i, j)
  carried : ∀ {i j}, p = .flip (i, j) →
    s.PrimeAt i j ∧ (∀ k, s.PrimeAt i k → k = j) ∧ (∀ k, ¬s.StarAt i k) ∧
      ¬s.RowCovered i ∧ ¬s.ColCovered j
  covered_col : ∀ {j}, s.ColCovered j → ∃ i, s.StarAt i j
  covered_lines : s.coveredRows.card + s.coveredCols.card = s.starCount
  settled : p = .test →
    (∀ i, ¬s.RowCovered i) ∧ (∀ i j, ¬s.PrimeAt i j) ∧
      (∀ j, s.ColCovered j ↔ ∃ i, s.StarAt i j) ∧ (s.test.phase = .done ↔ s.starCount = n)

theorem State.Balanced.marked {s : State α n} {c : Option (Cell n n)} (h : s.Balanced c)
    {p : Phase n} (hp : ∀ x, p = .flip x ↔ c = some x) (htest : p ≠ .test) : Marked p s where
  star_row := h.star_row
  star_col := h.star_col
  star_cover := h.star_cover
  covered_row hr := by
    obtain ⟨j, hj⟩ := h.row_prime hr
    exact ⟨h.row_star hr, j, hj, fun k hk => h.prime_unique hk hj, h.prime_col hj⟩
  uncovered_row {i j} hr hj := (hp (i, j)).2 ((h.prime_row hj).resolve_left hr)
  carried {i j} hflip := by
    obtain ⟨hj, hr, hs⟩ := h.carried_prime ((hp (i, j)).1 hflip)
    exact ⟨hj, fun k hk => h.prime_unique hk hj, hs, hr, h.prime_col hj⟩
  covered_col := h.col_star
  covered_lines := h.coveredRows_add_coveredCols
  settled ht := absurd ht htest

theorem State.Settled.test_done_iff {s : State α n} (h : s.Settled) :
    s.test.phase = .done ↔ s.starCount = n := by
  rw [h.starCount_eq_iff, ← State.allCovered_iff]
  unfold State.test
  simp only []
  split
  · rename_i hall
    exact ⟨fun _ => hall, fun _ => rfl⟩
  · rename_i hall
    exact ⟨nofun, fun hcov => absurd hcov hall⟩

theorem Sound.marked [LE α] [DecidableLE α] {p : Phase n} {s : State α n} (h : Sound p s)
    (hp : p ≠ .start) : Marked p s := by
  cases p with
  | start => exact absurd rfl hp
  | test =>
      -- the settled state is marked as any balanced one, and the last clause adds what is its own
      have hm : Marked (.done : Phase n) s := h.balanced.marked (by simp) (by simp)
      exact
        { star_row := hm.star_row
          star_col := hm.star_col
          star_cover := hm.star_cover
          covered_row := hm.covered_row
          uncovered_row := fun _ hj => absurd hj (h.no_prime _ _)
          carried := fun e => by cases e
          covered_col := hm.covered_col
          covered_lines := hm.covered_lines
          settled := fun _ => ⟨h.no_row, h.no_prime, h.col_iff, h.test_done_iff⟩ }
  | search => exact h.1.marked (by simp) (by simp)
  | flip x => exact h.1.marked (by simp) (by simp)
  | adjust => exact h.1.marked (by simp) (by simp)
  | done => exact h.1.balanced.marked (by simp) (by simp)

end OptimalAssignment.Hungarian
