import OptimalAssignment.Proofs.Hungarian.Marks

/-!
# The balance of marks and covers

No line holds two stars, every star has exactly one of its lines covered, and every covered line
holds a star.  A covered row also holds its one prime.  The primes of a search are ranked: the star
in the column of a prime stands in a row that was primed before.
-/

namespace OptimalAssignment.Hungarian.State

variable {α : Type} {n : Nat}

/-- A cell may be carried to the flip that starts from it; its row is not covered yet. -/
structure Balanced (s : State α n) (carried : Option (Cell n n)) : Prop where
  star_row : ∀ {i j k}, s.StarAt i j → s.StarAt i k → j = k
  star_col : ∀ {i k j}, s.StarAt i j → s.StarAt k j → i = k
  star_cover : ∀ {i j}, s.StarAt i j → (s.RowCovered i ↔ ¬s.ColCovered j)
  row_star : ∀ {i}, s.RowCovered i → ∃ j, s.StarAt i j
  col_star : ∀ {j}, s.ColCovered j → ∃ i, s.StarAt i j
  row_prime : ∀ {i}, s.RowCovered i → ∃ j, s.PrimeAt i j
  prime_row : ∀ {i j}, s.PrimeAt i j → s.RowCovered i ∨ carried = some (i, j)
  prime_unique : ∀ {i j k}, s.PrimeAt i j → s.PrimeAt i k → j = k
  prime_col : ∀ {i j}, s.PrimeAt i j → ¬s.ColCovered j
  carried_prime : ∀ {i j}, carried = some (i, j) →
    s.PrimeAt i j ∧ ¬s.RowCovered i ∧ ∀ k, ¬s.StarAt i k
  ranked : ∃ rank : Fin n → Nat, ∀ {i j k}, s.PrimeAt i j → s.StarAt k j → rank k < rank i

/-- Between two searches: no primes, no covered rows, and exactly the starred columns covered. -/
structure Settled (s : State α n) : Prop where
  star_row : ∀ {i j k}, s.StarAt i j → s.StarAt i k → j = k
  star_col : ∀ {i k j}, s.StarAt i j → s.StarAt k j → i = k
  no_row : ∀ i, ¬s.RowCovered i
  col_iff : ∀ j, s.ColCovered j ↔ ∃ i, s.StarAt i j
  no_prime : ∀ i j, ¬s.PrimeAt i j

theorem Settled.balanced {s : State α n} (h : s.Settled) : s.Balanced none where
  star_row := h.star_row
  star_col := h.star_col
  star_cover {i j} hs := by
    have hc : s.ColCovered j := (h.col_iff j).2 ⟨i, hs⟩
    exact ⟨fun hr => absurd hr (h.no_row i), fun hn => absurd hc hn⟩
  row_star {i} hr := absurd hr (h.no_row i)
  col_star {j} := (h.col_iff j).1
  row_prime {i} hr := absurd hr (h.no_row i)
  prime_row {i j} hp := absurd hp (h.no_prime i j)
  prime_unique {i j _} hp := absurd hp (h.no_prime i j)
  prime_col {i j} hp := absurd hp (h.no_prime i j)
  carried_prime hc := by cases hc
  ranked := ⟨fun _ => 0, fun {i j _} hp => absurd hp (h.no_prime i j)⟩

theorem Balanced.congr {s t : State α n} {c : Option (Cell n n)} (h : s.Balanced c)
    (hm : t.marks = s.marks) (hr : t.rowCovered = s.rowCovered)
    (hc : t.colCovered = s.colCovered) : t.Balanced c := by
  obtain ⟨_, _, _, _, _, _, _, _, _⟩ := t
  subst hm hr hc
  exact ⟨h.star_row, h.star_col, h.star_cover, h.row_star, h.col_star, h.row_prime, h.prime_row,
    h.prime_unique, h.prime_col, h.carried_prime, h.ranked⟩

theorem Settled.congr {s t : State α n} (h : s.Settled) (hm : t.marks = s.marks)
    (hr : t.rowCovered = s.rowCovered) (hc : t.colCovered = s.colCovered) : t.Settled := by
  obtain ⟨_, _, _, _, _, _, _, _, _⟩ := t
  subst hm hr hc
  exact ⟨h.star_row, h.star_col, h.no_row, h.col_iff, h.no_prime⟩

/-! ## Counting lines -/

theorem injOn_rows {s : State α n} (h : ∀ {i j k}, s.StarAt i j → s.StarAt i k → j = k) :
    Set.InjOn Prod.fst (s.starSet : Set (Cell n n)) := by
  rintro ⟨i, j⟩ hx ⟨k, l⟩ hy (rfl : i = k)
  have : j = l := h (mem_starSet.1 hx) (mem_starSet.1 hy)
  rw [this]

theorem injOn_cols {s : State α n} (h : ∀ {i k j}, s.StarAt i j → s.StarAt k j → i = k) :
    Set.InjOn Prod.snd (s.starSet : Set (Cell n n)) := by
  rintro ⟨i, j⟩ hx ⟨k, l⟩ hy (rfl : j = l)
  have : i = k := h (mem_starSet.1 hx) (mem_starSet.1 hy)
  rw [this]

namespace Balanced

section Counting

variable {s : State α n} {c : Option (Cell n n)}

theorem starCount_eq_rows (h : s.Balanced c) : s.starCount = s.starredRows.card := by
  rw [starCount_eq_card, s.starredRows_eq_image, Finset.card_image_of_injOn (injOn_rows h.star_row)]

theorem starCount_eq_cols (h : s.Balanced c) : s.starCount = s.starredCols.card := by
  rw [starCount_eq_card, s.starredCols_eq_image, Finset.card_image_of_injOn (injOn_cols h.star_col)]

theorem starCount_le (h : s.Balanced c) : s.starCount ≤ n := by
  rw [h.starCount_eq_rows]
  simpa using s.starredRows.card_le_univ

/-- Each star has one of its lines covered, and there are no other covered lines. -/
theorem coveredRows_add_coveredCols (h : s.Balanced c) :
    s.coveredRows.card + s.coveredCols.card = s.starCount := by
  -- the stars whose row is covered give the covered rows, the others the covered columns
  have hrows : s.coveredRows = (s.starSet.filter fun x => s.RowCovered x.1).image Prod.fst := by
    ext i
    constructor
    · intro hi
      obtain ⟨j, hj⟩ := h.row_star (mem_coveredRows.1 hi)
      exact Finset.mem_image.2
        ⟨(i, j), Finset.mem_filter.2 ⟨mem_starSet.2 hj, mem_coveredRows.1 hi⟩, rfl⟩
    · intro hi
      obtain ⟨x, hx, rfl⟩ := Finset.mem_image.1 hi
      exact mem_coveredRows.2 (Finset.mem_filter.1 hx).2
  have hcols : s.coveredCols = (s.starSet.filter fun x => ¬s.RowCovered x.1).image Prod.snd := by
    ext j
    constructor
    · intro hj
      obtain ⟨i, hi⟩ := h.col_star (mem_coveredCols.1 hj)
      have hr : ¬s.RowCovered i := fun hr => (h.star_cover hi).1 hr (mem_coveredCols.1 hj)
      exact Finset.mem_image.2 ⟨(i, j), Finset.mem_filter.2 ⟨mem_starSet.2 hi, hr⟩, rfl⟩
    · intro hj
      obtain ⟨x, hx, rfl⟩ := Finset.mem_image.1 hj
      obtain ⟨hs, hr⟩ := Finset.mem_filter.1 hx
      by_contra hc
      exact hr ((h.star_cover (mem_starSet.1 hs)).2 fun hcov => hc (mem_coveredCols.2 hcov))
  rw [hrows, hcols,
    Finset.card_image_of_injOn ((injOn_rows h.star_row).mono (Finset.filter_subset _ _)),
    Finset.card_image_of_injOn ((injOn_cols h.star_col).mono (Finset.filter_subset _ _)),
    starCount_eq_card,
    Finset.card_filter_add_card_filter_not]

theorem coveredRows_le (h : s.Balanced c) : s.coveredRows.card ≤ s.starCount := by
  rw [← h.coveredRows_add_coveredCols]
  exact Nat.le_add_right _ _

/-- As long as a star is missing, some cell has neither of its lines covered. -/
theorem not_rowCovered (h : s.Balanced c) {i : Fin n} (hi : ∀ l, ¬s.StarAt i l) :
    ¬s.RowCovered i :=
  fun hr => (h.row_star hr).elim hi

theorem not_colCovered (h : s.Balanced c) {j : Fin n} (hj : ∀ k, ¬s.StarAt k j) :
    ¬s.ColCovered j :=
  fun hc => (h.col_star hc).elim hj

/-- While a star is missing some row and some column are without one. -/
theorem exists_free (h : s.Balanced c) (hn : s.starCount < n) :
    ∃ i j, (∀ l, ¬s.StarAt i l) ∧ ∀ k, ¬s.StarAt k j := by
  have hrow : ∃ i, i ∉ s.starredRows := by
    by_contra hall
    push Not at hall
    rw [h.starCount_eq_rows, Finset.eq_univ_of_forall hall, Finset.card_univ,
      Fintype.card_fin] at hn
    omega
  have hcol : ∃ j, j ∉ s.starredCols := by
    by_contra hall
    push Not at hall
    rw [h.starCount_eq_cols, Finset.eq_univ_of_forall hall, Finset.card_univ,
      Fintype.card_fin] at hn
    omega
  obtain ⟨i, hi⟩ := hrow
  obtain ⟨j, hj⟩ := hcol
  exact ⟨i, j, fun l hl => hi (mem_starredRows.2 ⟨l, hl⟩),
    fun k hk => hj (mem_starredCols.2 ⟨k, hk⟩)⟩

theorem exists_open (h : s.Balanced c) (hn : s.starCount < n) :
    ∃ i j, ¬s.RowCovered i ∧ ¬s.ColCovered j := by
  obtain ⟨i, j, hi, hj⟩ := h.exists_free hn
  exact ⟨i, j, h.not_rowCovered hi, h.not_colCovered hj⟩

end Counting

end Balanced

/-- The stars are complete once all columns are covered. -/
theorem Settled.starCount_eq_iff {s : State α n} (h : s.Settled) :
    s.starCount = n ↔ ∀ j, s.ColCovered j := by
  rw [h.balanced.starCount_eq_cols]
  constructor
  · intro hfull j
    have huniv : s.starredCols = Finset.univ := by
      apply Finset.eq_univ_of_card
      rw [hfull, Fintype.card_fin]
    exact (h.col_iff j).2 (mem_starredCols.1 (huniv ▸ Finset.mem_univ j))
  · intro hall
    have huniv : s.starredCols = Finset.univ :=
      Finset.eq_univ_of_forall fun j => mem_starredCols.2 ((h.col_iff j).1 (hall j))
    rw [huniv, Finset.card_univ, Fintype.card_fin]

end OptimalAssignment.Hungarian.State
