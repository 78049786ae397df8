import Mathlib.Data.Finset.Lattice.Fold
import OptimalAssignment.Proofs.Hungarian.Balance
import OptimalAssignment.Proofs.Hungarian.Course

/-!
# The search keeps the balance

A prime is only laid where neither line is covered, so it hits no star, its row has no older prime,
and the star in its column, if there is one, stands in a row that was primed before.
-/

namespace OptimalAssignment.Hungarian.State

variable {α : Type} {n : Nat}

theorem primeAt_primed {s : State α n} {i j k l : Fin n} :
    (s.primed i j).PrimeAt k l ↔ (i = k ∧ j = l) ∨ s.PrimeAt k l := by
  unfold PrimeAt primed
  rw [marks_mark]
  by_cases h : i = k ∧ j = l
  · simp [h]
  · simp [h]

theorem rowCovered_moved {s : State α n} {i j k a : Fin n} :
    (s.moved i j k).RowCovered a ↔ i = a ∨ s.RowCovered a := by
  unfold RowCovered moved
  rw [rowCovered_coverRow]
  by_cases h : i = a
  · simp [h]
  · rw [if_neg h]
    exact ⟨.inr, fun hr => hr.resolve_left h⟩

theorem colCovered_moved {s : State α n} {i j k b : Fin n} :
    (s.moved i j k).ColCovered b ↔ k ≠ b ∧ s.ColCovered b := by
  show ((s.primed i j).coverColumn k false).colCovered.get b = true ↔ _
  rw [colCovered_coverColumn]
  by_cases h : k = b
  · simp [h]
  · rw [if_neg h]
    exact ⟨fun hc => ⟨h, hc⟩, fun hc => hc.2⟩

theorem coveredRows_moved (s : State α n) (i j k : Fin n) :
    (s.moved i j k).coveredRows = insert i s.coveredRows := by
  ext a
  rw [mem_coveredRows, rowCovered_moved, Finset.mem_insert, mem_coveredRows, eq_comm]

namespace Balanced

variable {s : State α n} {i j k l : Fin n}

theorem not_starAt_of_open (h : s.Balanced none) (hr : ¬s.RowCovered i) (hc : ¬s.ColCovered j) :
    ¬s.StarAt i j :=
  fun hs => hr ((h.star_cover hs).2 hc)

theorem not_primeAt_of_uncovered (h : s.Balanced none) (hr : ¬s.RowCovered i) (j : Fin n) :
    ¬s.PrimeAt i j := by
  intro hp
  rcases h.prime_row hp with hr' | hn
  · exact hr hr'
  · cases hn

theorem starAt_primed (h : s.Balanced none) (hr : ¬s.RowCovered i) (hc : ¬s.ColCovered j) :
    (s.primed i j).StarAt k l ↔ s.StarAt k l := by
  unfold StarAt primed
  rw [marks_mark]
  by_cases hkl : i = k ∧ j = l
  · obtain ⟨rfl, rfl⟩ := hkl
    have := h.not_starAt_of_open hr hc
    simp [this]
  · rw [if_neg hkl]

theorem starCount_primed (h : s.Balanced none) (hr : ¬s.RowCovered i) (hc : ¬s.ColCovered j) :
    (s.primed i j).starCount = s.starCount := by
  have hset : (s.primed i j).starSet = s.starSet := by
    ext x
    rw [mem_starSet, mem_starSet, h.starAt_primed hr hc]
  rw [starCount_eq_card, starCount_eq_card, hset]

theorem prime_unique_primed (h : s.Balanced none) (hr : ¬s.RowCovered i) {a b c : Fin n}
    (hb : (s.primed i j).PrimeAt a b) (hc : (s.primed i j).PrimeAt a c) : b = c := by
  rcases primeAt_primed.1 hb with ⟨rfl, rfl⟩ | hb <;> rcases primeAt_primed.1 hc with ⟨e, rfl⟩ | hc
  · rfl
  · exact absurd hc (h.not_primeAt_of_uncovered hr c)
  · subst e
    exact absurd hb (h.not_primeAt_of_uncovered hr b)
  · exact h.prime_unique hb hc

theorem prime_col_primed (h : s.Balanced none) (hc : ¬s.ColCovered j) {a b : Fin n}
    (hp : (s.primed i j).PrimeAt a b) : ¬s.ColCovered b := by
  rcases primeAt_primed.1 hp with ⟨rfl, rfl⟩ | hp
  · exact hc
  · exact h.prime_col hp

/-- The row of the new prime gets a rank above all others. -/
theorem ranked_primed (h : s.Balanced none) (hr : ¬s.RowCovered i) (hc : ¬s.ColCovered j) :
    ∃ rank : Fin n → Nat, ∀ {a b k}, (s.primed i j).PrimeAt a b → (s.primed i j).StarAt k b →
      rank k < rank a := by
  obtain ⟨rank, hrank⟩ := h.ranked
  refine ⟨Function.update rank i (Finset.univ.sup rank + 1), fun {a b k} hp hs => ?_⟩
  rw [h.starAt_primed hr hc] at hs
  have hle : rank k ≤ Finset.univ.sup rank := Finset.le_sup (Finset.mem_univ k)
  -- an older prime has no star of row `i` in its column, since that column would be covered
  have hki : k ≠ i := by
    rintro rfl
    have hcol : s.ColCovered b := by
      by_contra hcol
      exact hr ((h.star_cover hs).2 hcol)
    exact h.prime_col_primed hc hp hcol
  rw [Function.update_of_ne hki]
  rcases primeAt_primed.1 hp with ⟨rfl, rfl⟩ | hold
  · rw [Function.update_self]
    omega
  · have hai : a ≠ i := fun e => h.not_primeAt_of_uncovered hr b (e ▸ hold)
    rw [Function.update_of_ne hai]
    exact hrank hold hs

theorem primed (h : s.Balanced none) (hr : ¬s.RowCovered i) (hc : ¬s.ColCovered j)
    (hi : (s.primed i j).starInRow? i = none) : (s.primed i j).Balanced (some (i, j)) where
  star_row hs ht := h.star_row ((h.starAt_primed hr hc).1 hs) ((h.starAt_primed hr hc).1 ht)
  star_col hs ht := h.star_col ((h.starAt_primed hr hc).1 hs) ((h.starAt_primed hr hc).1 ht)
  star_cover hs := h.star_cover ((h.starAt_primed hr hc).1 hs)
  row_star ha := by
    obtain ⟨b, hb⟩ := h.row_star ha
    exact ⟨b, (h.starAt_primed hr hc).2 hb⟩
  col_star hb := by
    obtain ⟨a, ha⟩ := h.col_star hb
    exact ⟨a, (h.starAt_primed hr hc).2 ha⟩
  row_prime ha := by
    obtain ⟨b, hb⟩ := h.row_prime ha
    exact ⟨b, primeAt_primed.2 (.inr hb)⟩
  prime_row {a b} hp := by
    rcases primeAt_primed.1 hp with ⟨rfl, rfl⟩ | hp
    · exact .inr rfl
    · exact .inl ((h.prime_row hp).resolve_right (by simp))
  prime_unique := h.prime_unique_primed hr
  prime_col := h.prime_col_primed hc
  carried_prime {a b} e := by
    cases e
    exact ⟨primeAt_primed.2 (.inl ⟨rfl, rfl⟩), hr, starInRow?_eq_none.1 hi⟩
  ranked := h.ranked_primed hr hc

theorem moved (h : s.Balanced none) (hr : ¬s.RowCovered i) (hc : ¬s.ColCovered j)
    (hi : (s.primed i j).starInRow? i = some k) : (s.moved i j k).Balanced none where
  star_row hs ht := h.star_row ((h.starAt_primed hr hc).1 hs) ((h.starAt_primed hr hc).1 ht)
  star_col hs ht := h.star_col ((h.starAt_primed hr hc).1 hs) ((h.starAt_primed hr hc).1 ht)
  star_cover {a b} hs := by
    have hik : s.StarAt i k := (h.starAt_primed hr hc).1 (starAt_of_starInRow? hi)
    have hab : s.StarAt a b := (h.starAt_primed hr hc).1 hs
    -- only the star of the primed row has its cover moved, from its column to its row
    rw [rowCovered_moved, colCovered_moved]
    by_cases ha : i = a
    · subst ha
      have hkb : k = b := h.star_row hik hab
      simp [hkb]
    · have hkb : k ≠ b := by
        rintro rfl
        exact ha (h.star_col hik hab)
      simp only [ha, hkb, false_or, ne_eq, not_false_eq_true, true_and]
      exact h.star_cover hab
  row_star {a} ha := by
    rcases rowCovered_moved.1 ha with rfl | ha
    · exact ⟨k, starAt_of_starInRow? hi⟩
    · obtain ⟨b, hb⟩ := h.row_star ha
      exact ⟨b, (h.starAt_primed hr hc).2 hb⟩
  col_star {b} hb := by
    obtain ⟨a, ha⟩ := h.col_star (colCovered_moved.1 hb).2
    exact ⟨a, (h.starAt_primed hr hc).2 ha⟩
  row_prime {a} ha := by
    rcases rowCovered_moved.1 ha with rfl | ha
    · exact ⟨j, primeAt_primed.2 (.inl ⟨rfl, rfl⟩)⟩
    · obtain ⟨b, hb⟩ := h.row_prime ha
      exact ⟨b, primeAt_primed.2 (.inr hb)⟩
  prime_row {a b} hp := by
    rcases primeAt_primed.1 hp with ⟨rfl, rfl⟩ | hp
    · exact .inl (rowCovered_moved.2 (.inl rfl))
    · exact .inl (rowCovered_moved.2 (.inr ((h.prime_row hp).resolve_right (by simp))))
  prime_unique := h.prime_unique_primed hr
  prime_col hp hb := h.prime_col_primed hc hp (colCovered_moved.1 hb).2
  carried_prime e := by cases e
  ranked := h.ranked_primed hr hc

end Balanced
end OptimalAssignment.Hungarian.State
