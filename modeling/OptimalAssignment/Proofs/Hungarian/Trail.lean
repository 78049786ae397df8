import OptimalAssignment.Proofs.Hungarian.Balance
import OptimalAssignment.Proofs.Hungarian.Walks

/-!
# Alternating trails

In a balanced state a chain alternates between primes and stars: from a prime it goes to the star in
its column and from there to the prime in the star's row.  The ranks of the rows fall along it, so
it never meets a cell again and ends at a prime whose column holds no star.
-/

namespace OptimalAssignment.Hungarian

variable {α : Type} {n : Nat}

/-- The cells passed, the newest first, and the prime that was reached. -/
inductive Trail (s : State α n) (x : Cell n n) : List (Cell n n) → Cell n n → Prop where
  | start : Trail s x [x] x
  | extend {cells : List (Cell n n)} {p : Cell n n} {i k : Fin n} (h : Trail s x cells p)
      (hs : s.StarAt i p.2) (hp : s.PrimeAt i k) :
      Trail s x ((i, k) :: (i, p.2) :: cells) (i, k)

namespace Trail

variable {s : State α n} {x p : Cell n n} {cells : List (Cell n n)}

theorem mem_last (h : Trail s x cells p) : p ∈ cells := by
  cases h with
  | start => exact List.mem_singleton_self x
  | extend => exact List.mem_cons_self

theorem mem_first (h : Trail s x cells p) : x ∈ cells := by
  induction h with
  | start => exact List.mem_singleton_self x
  | extend _ _ _ ih => exact List.mem_cons_of_mem _ (List.mem_cons_of_mem _ ih)

theorem prime_last (h : Trail s x cells p) (hx : s.PrimeAt x.1 x.2) : s.PrimeAt p.1 p.2 := by
  cases h with
  | start => exact hx
  | extend _ _ hp => exact hp

theorem mem_extend {y : Cell n n} {i j k : Fin n} (hy : y ∈ (i, k) :: (i, j) :: cells) :
    y = (i, k) ∨ y = (i, j) ∨ y ∈ cells := by
  simpa using hy

/-- A prime that was passed is the last, or the star in its column was passed too. -/
theorem star_of_prime (h : Trail s x cells p) {y : Cell n n} (hy : y ∈ cells)
    (hp : s.PrimeAt y.1 y.2) : y = p ∨ ∃ i, s.StarAt i y.2 ∧ (i, y.2) ∈ cells := by
  induction h generalizing y with
  | start => exact .inl (List.mem_singleton.1 hy)
  | @extend cells p i k _ hs _ ih =>
      rcases mem_extend hy with rfl | rfl | hy
      · exact .inl rfl
      · exact absurd hp (State.not_primeAt_of_starAt hs)
      · right
        rcases ih hy hp with rfl | ⟨l, hl, hmem⟩
        · exact ⟨i, hs, by simp⟩
        · exact ⟨l, hl, by simp [hmem]⟩

/-- A prime that was passed is the first, or it was reached from the star in its row. -/
theorem star_before_prime (h : Trail s x cells p) {y : Cell n n} (hy : y ∈ cells)
    (hp : s.PrimeAt y.1 y.2) : y = x ∨ ∃ j, s.StarAt y.1 j ∧ (y.1, j) ∈ cells := by
  induction h generalizing y with
  | start => exact .inl (List.mem_singleton.1 hy)
  | @extend cells p i k _ hs _ ih =>
      rcases mem_extend hy with rfl | rfl | hy
      · exact .inr ⟨p.2, hs, by simp⟩
      · exact absurd hp (State.not_primeAt_of_starAt hs)
      · refine (ih hy hp).imp_right fun ⟨j, hj, hmem⟩ => ⟨j, hj, ?_⟩
        simp [hmem]

theorem prime_of_star (h : Trail s x cells p) (hx : s.PrimeAt x.1 x.2) {y : Cell n n}
    (hy : y ∈ cells) (hs : s.StarAt y.1 y.2) : ∃ k, s.PrimeAt y.1 k ∧ (y.1, k) ∈ cells := by
  induction h generalizing y with
  | start =>
      rw [List.mem_singleton.1 hy] at hs
      exact absurd hx (State.not_primeAt_of_starAt hs)
  | @extend cells p i k _ _ hk ih =>
      rcases mem_extend hy with rfl | rfl | hy
      · exact absurd hk (State.not_primeAt_of_starAt hs)
      · exact ⟨k, hk, by simp⟩
      · obtain ⟨l, hl, hmem⟩ := ih hy hs
        exact ⟨l, hl, by simp [hmem]⟩

/-- A star that was passed was reached from the prime in its column. -/
theorem prime_before_star (h : Trail s x cells p) (hx : s.PrimeAt x.1 x.2) {y : Cell n n}
    (hy : y ∈ cells) (hs : s.StarAt y.1 y.2) : ∃ k, s.PrimeAt k y.2 ∧ (k, y.2) ∈ cells := by
  induction h generalizing y with
  | start =>
      rw [List.mem_singleton.1 hy] at hs
      exact absurd hx (State.not_primeAt_of_starAt hs)
  | @extend cells p i k h _ hk ih =>
      rcases mem_extend hy with rfl | rfl | hy
      · exact absurd hk (State.not_primeAt_of_starAt hs)
      · exact ⟨p.1, h.prime_last hx, by simp [h.mem_last]⟩
      · obtain ⟨l, hl, hmem⟩ := ih hy hs
        exact ⟨l, hl, by simp [hmem]⟩

/-! ## Ranks along a trail -/

section Ranked

variable {rank : Fin n → Nat}

theorem rank_le (h : Trail s x cells p) (hx : s.PrimeAt x.1 x.2)
    (hrank : ∀ {i j k}, s.PrimeAt i j → s.StarAt k j → rank k < rank i) {y : Cell n n}
    (hy : y ∈ cells) : rank p.1 ≤ rank y.1 := by
  induction h generalizing y with
  | start => rw [List.mem_singleton.1 hy]
  | @extend cells p i k h hs _ ih =>
      rcases mem_extend hy with rfl | rfl | hy
      · exact Nat.le_refl _
      · exact Nat.le_refl _
      · have hlt := hrank (h.prime_last hx) hs
        have hle := ih hy
        exact Nat.le_trans (Nat.le_of_lt hlt) hle

/-- The star in the column of the last prime stands in a row that the trail has not been to. -/
theorem row_ne (h : Trail s x cells p) (hx : s.PrimeAt x.1 x.2)
    (hrank : ∀ {i j k}, s.PrimeAt i j → s.StarAt k j → rank k < rank i) {i : Fin n}
    (hs : s.StarAt i p.2) {y : Cell n n} (hy : y ∈ cells) : i ≠ y.1 := by
  rintro rfl
  have hlt := hrank (h.prime_last hx) hs
  have hle := h.rank_le hx hrank hy
  omega

theorem prime_col_unique (h : Trail s x cells p) (hx : s.PrimeAt x.1 x.2)
    (hrank : ∀ {i j k}, s.PrimeAt i j → s.StarAt k j → rank k < rank i) {a b j : Fin n}
    (ha : (a, j) ∈ cells) (hpa : s.PrimeAt a j) (hb : (b, j) ∈ cells) (hpb : s.PrimeAt b j) :
    a = b := by
  induction h generalizing a b j with
  | start =>
      have ha := List.mem_singleton.1 ha
      have hb := List.mem_singleton.1 hb
      rw [← hb] at ha
      exact congrArg Prod.fst ha
  | @extend cells p i k h hs hk ih =>
      -- the new prime shares its column with no older one: the star there was left behind
      have hnew : ∀ {c}, (c, k) ∈ cells → ¬s.PrimeAt c k := by
        intro c hc hpc
        rcases h.star_of_prime hc hpc with e | ⟨r, hr, hmem⟩
        · subst e
          exact State.not_primeAt_of_starAt hs hk
        · have hlt : rank r < rank i := hrank hk hr
          have hle : rank p.1 ≤ rank r := h.rank_le hx hrank hmem
          have hup : rank i < rank p.1 := hrank (h.prime_last hx) hs
          omega
      have hcell : ∀ {c}, (c, j) ∈ (i, k) :: (i, p.2) :: cells → s.PrimeAt c j →
          (c = i ∧ j = k) ∨ (c, j) ∈ cells := by
        intro c hc hpc
        rcases mem_extend hc with e | e | hc
        · cases e; exact .inl ⟨rfl, rfl⟩
        · cases e
          exact absurd hpc (State.not_primeAt_of_starAt hs)
        · exact .inr hc
      rcases hcell ha hpa with ⟨rfl, rfl⟩ | ha' <;> rcases hcell hb hpb with ⟨rfl, e⟩ | hb'
      · rfl
      · exact absurd hpb (hnew hb')
      · subst e; exact absurd hpa (hnew ha')
      · exact ih ha' hpa hb' hpb

end Ranked

/-! ## The walk follows a trail -/

theorem continued {w v : Walk n} (h : Trail s x w.cells p) (hcol : w.col = p.2)
    (hr : w.round s = .continued v) : ∃ q, Trail s x v.cells q ∧ v.col = q.2 := by
  obtain ⟨i, k, hs, -, hp, -, rfl⟩ := Walk.of_continued hr
  rw [hcol] at hs ⊢
  have hstar := State.starAt_of_starInColumn? hs
  exact ⟨(i, k), h.extend hstar (State.primeAt_of_primeInRow? hp), rfl⟩

end Trail

namespace State.Balanced

variable {s : State α n} {x : Cell n n}

theorem prime_carried (h : s.Balanced (some x)) : s.PrimeAt x.1 x.2 :=
  (h.carried_prime rfl).1

/-- A trail stops for want of a star only: neither guard against going in circles is ever needed,
and no row of a star lacks its prime. -/
theorem stops_trail (h : s.Balanced (some x)) {w : Walk n} {why : Walk.Exit}
    {cells : List (Cell n n)} (hstop : Walk.Stops s w why cells) {p : Cell n n}
    (ht : Trail s x w.cells p) (hcol : w.col = p.2) :
    why = .starless ∧ cells = w.cells ∧ ∀ i, ¬s.StarAt i p.2 := by
  obtain ⟨rank, hrank⟩ := h.ranked
  -- nothing of the star's row was passed before
  have hfresh : ∀ {i j}, s.starInColumn? w.col = some i → (i, j) ∉ w.cells := fun hs hmem =>
    ht.row_ne h.prime_carried hrank (hcol ▸ starAt_of_starInColumn? hs) hmem rfl
  cases hstop with
  | starless hs => exact ⟨rfl, rfl, hcol ▸ starInColumn?_eq_none.1 hs⟩
  | starPassed hs hin => exact absurd hin (hfresh hs)
  | @primeless i hs _ hp =>
      have hstar : s.StarAt i p.2 := hcol ▸ starAt_of_starInColumn? hs
      have hcov : s.RowCovered i :=
        (h.star_cover hstar).2 (h.prime_col (ht.prime_last h.prime_carried))
      obtain ⟨k, hk⟩ := h.row_prime hcov
      exact absurd hk (primeInRow?_eq_none.1 hp k)
  | primePassed hs _ hp hin =>
      rcases List.mem_cons.1 hin with e | hin
      · cases e
        have hstar := starAt_of_starInColumn? hs
        exact absurd (primeAt_of_primeInRow? hp) (not_primeAt_of_starAt hstar)
      · exact absurd hin (hfresh hs)

theorem ends_trail (h : s.Balanced (some x)) {w : Walk n} {rounds : Nat} {why : Walk.Exit}
    {cells : List (Cell n n)} (hends : Walk.Ends s w rounds why cells) {p : Cell n n}
    (ht : Trail s x w.cells p) (hcol : w.col = p.2) :
    why = .starless ∧ ∃ q, Trail s x cells q ∧ ∀ i, ¬s.StarAt i q.2 := by
  induction hends generalizing p with
  | stop hstop =>
      obtain ⟨hwhy, hcells, hend⟩ := h.stops_trail hstop ht hcol
      exact ⟨hwhy, p, hcells ▸ ht, hend⟩
  | go hr _ ih =>
      obtain ⟨q, hq, hqcol⟩ := ht.continued hcol hr
      exact ih hq hqcol

theorem chain_trail (h : s.Balanced (some x)) :
    ∃ q, Trail s x (s.chain x) q ∧ ∀ i, ¬s.StarAt i q.2 := by
  obtain ⟨_, _, hends⟩ := s.exists_chain_ends x
  exact (h.ends_trail hends .start rfl).2

end State.Balanced
end OptimalAssignment.Hungarian
