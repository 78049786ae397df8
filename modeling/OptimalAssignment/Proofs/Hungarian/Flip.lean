import OptimalAssignment.Hungarian.Stage
import OptimalAssignment.Proofs.Hungarian.Trail

/-!
# A flip makes one star more

The stars on the chain go and its primes become stars.  The chain leaves a row by its prime wherever
it came in by a star, and a column by its star wherever it came in by a prime, except at its two
ends.  So each starred line stays starred, and the row of the carried cell and the column of the last
prime are added.
-/

namespace OptimalAssignment.Hungarian.State

variable {α : Type} {n : Nat}

theorem starAt_exchange {s : State α n} {cells : List (Cell n n)} {i j : Fin n} :
    (s.exchange cells).StarAt i j ↔
      (s.StarAt i j ∧ (i, j) ∉ cells) ∨ (s.PrimeAt i j ∧ (i, j) ∈ cells) := by
  unfold StarAt PrimeAt exchange
  simp only [Grid.get_ofFn]
  split
  · rename_i h
    by_cases hc : (i, j) ∈ cells <;> simp [h, hc]
  · rename_i h
    by_cases hc : (i, j) ∈ cells <;> simp [h, hc]
  · rename_i hs hp
    exact ⟨fun h => absurd h hs, fun h => h.elim (fun h => absurd h.1 hs) fun h => absurd h.1 hp⟩

theorem not_primeAt_exchange (s : State α n) (cells : List (Cell n n)) (i j : Fin n) :
    ¬(s.exchange cells).PrimeAt i j := by
  unfold PrimeAt exchange
  simp only [Grid.get_ofFn]
  split
  · split <;> simp
  · split <;> simp
  · rename_i h
    exact h

/-! ## Stars after a flip -/

theorem starAt_flip (s : State α n) (x : Cell n n) (i j : Fin n) :
    (s.flip x).state.StarAt i j ↔
      (s.StarAt i j ∧ (i, j) ∉ s.chain x) ∨ (s.PrimeAt i j ∧ (i, j) ∈ s.chain x) :=
  starAt_exchange

namespace Balanced

variable {s : State α n} {x : Cell n n}

theorem star_row_flip (h : s.Balanced (some x)) {i j k : Fin n}
    (hj : (s.flip x).state.StarAt i j) (hk : (s.flip x).state.StarAt i k) : j = k := by
  obtain ⟨q, ht, -⟩ := h.chain_trail
  -- an old star that stays and a new one cannot share a row
  have hmix : ∀ {j k}, s.StarAt i j → (i, j) ∉ s.chain x → s.PrimeAt i k → (i, k) ∉ s.chain x := by
    intro j k hs hout hp hin
    rcases ht.star_before_prime hin hp with e | ⟨c, hc, hmem⟩
    · subst e
      exact (h.carried_prime rfl).2.2 j hs
    · rw [h.star_row hs hc] at hout
      exact hout hmem
  rcases (starAt_flip s x i j).1 hj with ⟨hj, hj'⟩ | ⟨hj, hj'⟩ <;>
    rcases (starAt_flip s x i k).1 hk with ⟨hk, hk'⟩ | ⟨hk, hk'⟩
  · exact h.star_row hj hk
  · exact absurd hk' (hmix hj hj' hk)
  · exact absurd hj' (hmix hk hk' hj)
  · exact h.prime_unique hj hk

theorem star_col_flip (h : s.Balanced (some x)) {i k j : Fin n}
    (hi : (s.flip x).state.StarAt i j) (hk : (s.flip x).state.StarAt k j) : i = k := by
  obtain ⟨q, ht, hend⟩ := h.chain_trail
  -- nor can they share a column: the chain either ends there or passes the old star
  have hmix : ∀ {i k}, s.StarAt i j → (i, j) ∉ s.chain x → s.PrimeAt k j → (k, j) ∉ s.chain x := by
    intro i k hs hout hp hin
    rcases ht.star_of_prime hin hp with e | ⟨r, hr, hmem⟩
    · subst e
      exact hend i hs
    · rw [h.star_col hs hr] at hout
      exact hout hmem
  rcases (starAt_flip s x i j).1 hi with ⟨hi, hi'⟩ | ⟨hi, hi'⟩ <;>
    rcases (starAt_flip s x k j).1 hk with ⟨hk, hk'⟩ | ⟨hk, hk'⟩
  · exact h.star_col hi hk
  · exact absurd hk' (hmix hi hi' hk)
  · exact absurd hi' (hmix hk hk' hi)
  · obtain ⟨rank, hrank⟩ := h.ranked
    exact ht.prime_col_unique h.prime_carried hrank hi' hi hk' hk

theorem settled_flip (h : s.Balanced (some x)) : (s.flip x).state.Settled where
  star_row := h.star_row_flip
  star_col := h.star_col_flip
  no_row := not_get_replicate_false
  col_iff j := by
    show
      (Vector.ofFn fun j => ((s.exchange (s.chain x)).clearCovers.starInColumn? j).isSome).get j =
      true ↔ _
    rw [vector_get_ofFn, isSome_starInColumn?]
    rfl
  no_prime := not_primeAt_exchange s (s.chain x)

theorem starredRows_flip (h : s.Balanced (some x)) :
    (s.flip x).state.starredRows = insert x.1 s.starredRows := by
  obtain ⟨q, ht, -⟩ := h.chain_trail
  have hx := h.prime_carried
  ext i
  rw [Finset.mem_insert, mem_starredRows, mem_starredRows]
  constructor
  · rintro ⟨j, hj⟩
    rcases (starAt_flip s x i j).1 hj with ⟨hj, -⟩ | ⟨hj, hin⟩
    · exact .inr ⟨j, hj⟩
    · rcases ht.star_before_prime hin hj with e | ⟨c, hc, -⟩
      · exact .inl (congrArg Prod.fst e)
      · exact .inr ⟨c, hc⟩
  · rintro (rfl | ⟨j, hj⟩)
    · exact ⟨x.2, (starAt_flip s x x.1 x.2).2 (.inr ⟨hx, ht.mem_first⟩)⟩
    -- a star on the chain leaves its row to the prime that comes next
    · by_cases hin : (i, j) ∈ s.chain x
      · obtain ⟨k, hk, hmem⟩ := ht.prime_of_star hx hin hj
        exact ⟨k, (starAt_flip s x i k).2 (.inr ⟨hk, hmem⟩)⟩
      · exact ⟨j, (starAt_flip s x i j).2 (.inl ⟨hj, hin⟩)⟩

theorem starred_row_flip (h : s.Balanced (some x)) {i j : Fin n} (hs : s.StarAt i j) :
    ∃ l, (s.flip x).state.StarAt i l := by
  rw [← mem_starredRows, h.starredRows_flip]
  exact Finset.mem_insert_of_mem (mem_starredRows.2 ⟨j, hs⟩)

/-- A starred column stays starred. -/
theorem starred_col_flip (h : s.Balanced (some x)) {i j : Fin n} (hs : s.StarAt i j) :
    ∃ k, (s.flip x).state.StarAt k j := by
  obtain ⟨q, ht, -⟩ := h.chain_trail
  by_cases hin : (i, j) ∈ s.chain x
  · obtain ⟨k, hk, hmem⟩ := ht.prime_before_star h.prime_carried hin hs
    exact ⟨k, (starAt_flip s x k j).2 (.inr ⟨hk, hmem⟩)⟩
  · exact ⟨i, (starAt_flip s x i j).2 (.inl ⟨hs, hin⟩)⟩

/-- Besides the starred columns only that of the last prime is starred, and it was free before. -/
theorem starredCols_flip (h : s.Balanced (some x)) :
    ∃ l, (∀ i, ¬s.StarAt i l) ∧ (s.flip x).state.starredCols = insert l s.starredCols := by
  obtain ⟨q, ht, hend⟩ := h.chain_trail
  refine ⟨q.2, hend, ?_⟩
  ext j
  rw [Finset.mem_insert, mem_starredCols, mem_starredCols]
  constructor
  · rintro ⟨i, hi⟩
    rcases (starAt_flip s x i j).1 hi with ⟨hi, -⟩ | ⟨hi, hin⟩
    · exact .inr ⟨i, hi⟩
    · rcases ht.star_of_prime hin hi with e | ⟨k, hk, -⟩
      · exact .inl (congrArg Prod.snd e)
      · exact .inr ⟨k, hk⟩
  · rintro (rfl | ⟨i, hi⟩)
    · have hq := ht.prime_last h.prime_carried
      exact ⟨q.1, (starAt_flip s x q.1 q.2).2 (.inr ⟨hq, ht.mem_last⟩)⟩
    · exact h.starred_col_flip hi

theorem starCount_flip (h : s.Balanced (some x)) :
    (s.flip x).state.starCount = s.starCount + 1 := by
  have hx : x.1 ∉ s.starredRows := by
    rw [mem_starredRows]
    rintro ⟨j, hj⟩
    exact (h.carried_prime rfl).2.2 j hj
  rw [h.settled_flip.balanced.starCount_eq_rows, h.starCount_eq_rows, h.starredRows_flip,
    Finset.card_insert_of_notMem hx]

end Balanced

/-! ## Nothing is crowded -/

theorem foldl_max_le {bound : Nat} (l : List Nat) (h : ∀ k ∈ l, k ≤ bound) {a : Nat}
    (ha : a ≤ bound) : l.foldl max a ≤ bound := by
  induction l generalizing a with
  | nil => exact ha
  | cons k l ih =>
      rw [List.foldl_cons]
      apply ih (fun m hm => h m (List.mem_cons_of_mem _ hm))
      exact Nat.max_le.2 ⟨ha, h k List.mem_cons_self⟩

theorem peak?_eq_none {count : Fin n → Nat} (h : ∀ k, count k ≤ 1) : peak? count = none := by
  have hle : ((List.finRange n).map count).foldl max 0 ≤ 1 := by
    apply foldl_max_le _ _ (Nat.zero_le 1)
    simpa using h
  unfold peak?
  rw [if_neg (by omega)]

theorem countP_map_finRange_le_one {f : Fin n → Mark} {m : Mark}
    (h : ∀ {j k}, f j = m → f k = m → j = k) :
    ((List.finRange n).map f).countP (· == m) ≤ 1 := by
  rw [List.countP_map, List.countP_eq_length_filter]
  have hnodup := (List.nodup_finRange n).filter ((· == m) ∘ f)
  cases hl : (List.finRange n).filter ((· == m) ∘ f) with
  | nil => simp
  | cons j rest =>
      have hall : ∀ k ∈ j :: rest, f k = m := by
        intro k hk
        rw [← hl] at hk
        simpa using (List.mem_filter.1 hk).2
      cases rest with
      | nil => simp
      | cons k rest =>
          rw [hl] at hnodup
          have : j = k := h (hall j (by simp)) (hall k (by simp))
          simp [this] at hnodup

theorem Settled.crowded?_eq_none {s : State α n} (h : s.Settled) : s.crowded? = none := by
  have hcol : peak? s.columnStars = none :=
    peak?_eq_none fun _ => countP_map_finRange_le_one fun hj hk => h.star_col hj hk
  have hrow : peak? s.rowStars = none :=
    peak?_eq_none fun _ => countP_map_finRange_le_one fun hj hk => h.star_row hj hk
  unfold crowded?
  rw [hcol, hrow]
  rfl

end OptimalAssignment.Hungarian.State
