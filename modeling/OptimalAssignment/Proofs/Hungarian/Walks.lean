import Mathlib.Data.List.Perm.Subperm
import OptimalAssignment.Hungarian.Chain
import OptimalAssignment.Proofs.Hungarian.Marks

/-!
# How walks end

A walk goes round after round until one of them stops it.  `Ends` says in how many rounds, why and
with which cells, whatever the marks are: lines may be crowded and the marks may lead round in
circles.  Every round but the last takes a star that the walk has not been at, so the stars bound
the rounds and the cells.
-/

namespace OptimalAssignment.Hungarian

variable {α : Type} {n : Nat}

namespace Walk

def start (x : Cell n n) : Walk n :=
  ⟨[x], x.2⟩

/-- What stops a walk. -/
inductive Exit where
  /-- The column holds no star. -/
  | starless
  /-- The star was passed before. -/
  | starPassed
  /-- The row of the star holds no prime. -/
  | primeless
  /-- The prime was passed before. -/
  | primePassed
  deriving DecidableEq, Repr

/-- A round stops the walk and leaves these cells. -/
inductive Stops (s : State α n) (w : Walk n) : Exit → List (Cell n n) → Prop where
  | starless (hs : s.starInColumn? w.col = none) : Stops s w .starless w.cells
  | starPassed {i : Fin n} (hs : s.starInColumn? w.col = some i) (hin : (i, w.col) ∈ w.cells) :
      Stops s w .starPassed w.cells
  | primeless {i : Fin n} (hs : s.starInColumn? w.col = some i) (hout : (i, w.col) ∉ w.cells)
      (hp : s.primeInRow? i = none) : Stops s w .primeless ((i, w.col) :: w.cells)
  | primePassed {i k : Fin n} (hs : s.starInColumn? w.col = some i) (hout : (i, w.col) ∉ w.cells)
      (hp : s.primeInRow? i = some k) (hin : (i, k) ∈ (i, w.col) :: w.cells) :
      Stops s w .primePassed ((i, w.col) :: w.cells)

/-- After so many rounds the walk is stopped for a reason and leaves these cells. -/
inductive Ends (s : State α n) : Walk n → Nat → Exit → List (Cell n n) → Prop where
  | stop {w : Walk n} {why : Exit} {cells : List (Cell n n)} (h : Stops s w why cells) :
      Ends s w 1 why cells
  | go {w v : Walk n} {rounds : Nat} {why : Exit} {cells : List (Cell n n)}
      (h : w.round s = .continued v) (hv : Ends s v rounds why cells) :
      Ends s w (rounds + 1) why cells

/-! ## Single rounds -/

section Rounds

variable {s : State α n} {w : Walk n} {cells : List (Cell n n)}

theorem Stops.round_eq {why : Exit} (h : Stops s w why cells) : w.round s = .stopped cells := by
  unfold round
  cases h with
  | starless hs => rw [hs]
  | starPassed hs hin =>
      rw [hs]
      exact if_pos hin
  | primeless hs hout hp =>
      rw [hs]
      simp only [if_neg hout, hp]
  | primePassed hs hout hp hin =>
      rw [hs]
      simp only [if_neg hout, hp, if_pos hin]

theorem exists_stops (h : w.round s = .stopped cells) : ∃ why, Stops s w why cells := by
  unfold round at h
  split at h
  · rename_i hs
    cases h
    exact ⟨_, .starless hs⟩
  · rename_i i hs
    split at h
    · rename_i hin
      cases h
      exact ⟨_, .starPassed hs hin⟩
    · rename_i hout
      simp only [] at h
      split at h
      · rename_i hp
        cases h
        exact ⟨_, .primeless hs hout hp⟩
      · rename_i k hp
        split at h
        · rename_i hin
          cases h
          exact ⟨_, .primePassed hs hout hp hin⟩
        · cases h

end Rounds

/-! ## Whole walks -/

theorem Ends.finish_eq {s : State α n} {w : Walk n} {rounds : Nat} {why : Exit}
    {cells : List (Cell n n)} (h : Ends s w rounds why cells) : w.finish s = cells := by
  induction h with
  | stop h => exact finish_of_stopped h.round_eq
  | go h _ ih => rw [finish_of_continued h, ih]

theorem exists_ends (s : State α n) (w : Walk n) :
    ∃ rounds why, Ends s w rounds why (w.finish s) := by
  induction w using Walk.finish.induct s with
  | case1 w cells h =>
      obtain ⟨why, hstop⟩ := exists_stops h
      rw [finish_of_stopped h]
      exact ⟨1, why, .stop hstop⟩
  | case2 w v h ih =>
      obtain ⟨rounds, why, hv⟩ := ih
      rw [finish_of_continued h]
      exact ⟨rounds + 1, why, .go h hv⟩

/-- A walk that runs out of stars passes two cells in each of its other rounds. -/
theorem Ends.length_of_starless {s : State α n} {w : Walk n} {rounds : Nat} {why : Exit}
    {cells : List (Cell n n)} (h : Ends s w rounds why cells) (hwhy : why = .starless) :
    cells.length + 2 = w.cells.length + 2 * rounds := by
  induction h with
  | stop h =>
      subst hwhy
      cases h
      omega
  | go h _ ih =>
      obtain ⟨i, k, -, -, -, -, rfl⟩ := of_continued h
      have hlen := ih hwhy
      simp only [List.length_cons] at hlen
      omega

/-! ## What a walk gathers -/

/-- The number of stars among the cells. -/
def starsAmong (s : State α n) (cells : List (Cell n n)) : Nat :=
  cells.countP fun y => s.marks.entry y == .star

theorem starsAmong_cons (s : State α n) (y : Cell n n) (cells : List (Cell n n)) :
    starsAmong s (y :: cells) = starsAmong s cells + if s.StarAt y.1 y.2 then 1 else 0 := by
  simp [starsAmong, List.countP_cons, Grid.entry]

theorem starsAmong_le {s : State α n} {cells : List (Cell n n)} (h : cells.Nodup) :
    starsAmong s cells ≤ s.starCount := by
  unfold starsAmong
  rw [List.countP_eq_length_filter]
  have hsub : (cells.filter fun y => s.marks.entry y == .star) ⊆ s.stars := fun y hy =>
    Grid.mem_select.2 (List.mem_filter.1 hy).2
  exact ((h.filter _).subperm hsub).length_le

/-- Between two moments a walk has passed `k` new stars, each with at most one prime behind it. -/
structure Gathers (s : State α n) (k : Nat) (cells later : List (Cell n n)) : Prop where
  sub : cells ⊆ later
  nodup : cells.Nodup → later.Nodup
  marked : ∀ y ∈ later, y ∈ cells ∨ s.StarAt y.1 y.2 ∨ s.PrimeAt y.1 y.2
  stars : starsAmong s later = starsAmong s cells + k
  length_le : later.length ≤ cells.length + 2 * k

namespace Gathers

variable {s : State α n} {cells later last : List (Cell n n)}

theorem refl (s : State α n) (cells : List (Cell n n)) : Gathers s 0 cells cells :=
  ⟨fun _ => id, id, fun _ => .inl, rfl, Nat.le_refl _⟩

theorem trans {k l : Nat} (h : Gathers s k cells later) (h' : Gathers s l later last) :
    Gathers s (k + l) cells last where
  sub := fun _ hy => h'.sub (h.sub hy)
  nodup := fun hc => h'.nodup (h.nodup hc)
  marked y hy := (h'.marked y hy).elim (h.marked y) .inr
  stars := by rw [h'.stars, h.stars, Nat.add_assoc]
  length_le := by
    have h₁ := h.length_le
    have h₂ := h'.length_le
    omega

theorem star {y : Cell n n} (hs : s.StarAt y.1 y.2) (hout : y ∉ cells) :
    Gathers s 1 cells (y :: cells) where
  sub := List.subset_cons_self _ _
  nodup := fun hc => List.nodup_cons.2 ⟨hout, hc⟩
  marked z hz := (List.mem_cons.1 hz).elim (fun e => .inr (.inl (e ▸ hs))) .inl
  stars := by rw [starsAmong_cons, if_pos hs]
  length_le := by
    rw [List.length_cons]
    omega

/-- A star allows for two cells, its own and that of the prime behind it. -/
theorem star_prime {y z : Cell n n} (hs : s.StarAt y.1 y.2) (hout : y ∉ cells)
    (hp : s.PrimeAt z.1 z.2) (hnew : z ∉ y :: cells) : Gathers s 1 cells (z :: y :: cells) where
  sub := fun _ hv => List.mem_cons_of_mem _ (List.mem_cons_of_mem _ hv)
  nodup := fun hc => List.nodup_cons.2 ⟨hnew, (star hs hout).nodup hc⟩
  marked v hv := (List.mem_cons.1 hv).elim (fun e => .inr (.inr (e ▸ hp))) ((star hs hout).marked v)
  stars := by
    have hne : ¬s.StarAt z.1 z.2 := fun hstar => State.not_primeAt_of_starAt hstar hp
    rw [starsAmong_cons, if_neg hne, (star hs hout).stars]
  length_le := by simp

end Gathers

theorem Stops.gathers {s : State α n} {w : Walk n} {why : Exit} {cells : List (Cell n n)}
    (h : Stops s w why cells) : ∃ k, Gathers s k w.cells cells := by
  cases h with
  | starless => exact ⟨0, .refl s w.cells⟩
  | starPassed => exact ⟨0, .refl s w.cells⟩
  | primeless hs hout => exact ⟨1, .star (State.starAt_of_starInColumn? hs) hout⟩
  | primePassed hs hout => exact ⟨1, .star (State.starAt_of_starInColumn? hs) hout⟩

theorem Ends.gathers {s : State α n} {w : Walk n} {rounds : Nat} {why : Exit}
    {cells : List (Cell n n)} (h : Ends s w rounds why cells) :
    ∃ k, rounds ≤ k + 1 ∧ Gathers s k w.cells cells := by
  induction h with
  | stop h =>
      obtain ⟨k, hk⟩ := h.gathers
      exact ⟨k, Nat.le_add_left 1 k, hk⟩
  | go h _ ih =>
      obtain ⟨k, hrounds, hk⟩ := ih
      obtain ⟨i, j, hs, hout, hp, hnew, rfl⟩ := of_continued h
      have hround : Gathers s 1 _ _ :=
        .star_prime (State.starAt_of_starInColumn? hs) hout (State.primeAt_of_primeInRow? hp) hnew
      exact ⟨1 + k, by omega, hround.trans hk⟩

end Walk

/-! ## Chains -/

namespace State

variable {s : State α n} {x : Cell n n}

theorem exists_chain_ends (s : State α n) (x : Cell n n) :
    ∃ rounds why, Walk.Ends s (.start x) rounds why (s.chain x) :=
  Walk.exists_ends s (.start x)

theorem nodup_chain (s : State α n) (x : Cell n n) : (s.chain x).Nodup := by
  obtain ⟨_, _, hends⟩ := s.exists_chain_ends x
  obtain ⟨_, -, hk⟩ := hends.gathers
  exact hk.nodup (List.nodup_singleton x)

theorem mem_chainCells {y : Cell n n} : y ∈ s.chainCells x ↔ y ∈ s.chain x := by
  simp [chainCells]

theorem length_chainCells (s : State α n) (x : Cell n n) :
    (s.chainCells x).length = (s.chain x).length := by
  have hcells : (s.chainCells x).Nodup := (nodup_allCells n n).filter _
  have hperm := (List.perm_ext_iff_of_nodup hcells (s.nodup_chain x)).2 fun _ => mem_chainCells
  exact hperm.length_eq

end State

/-- However the cells are marked, a walk comes to an end: it makes at most one round more than there
are stars, and besides the cell it starts from it passes only stars and primes, at most two of them
for each star. -/
theorem every_walk_ends (s : State α n) (x : Cell n n) :
    (∃ rounds why, Walk.Ends s (.start x) rounds why (s.chain x)) ∧
      (∀ {rounds why cells}, Walk.Ends s (.start x) rounds why cells →
        rounds ≤ s.starCount + 1 ∧ cells = s.chain x) ∧
      x ∈ s.chainCells x ∧
      (∀ y ∈ s.chainCells x, y ≠ x → s.StarAt y.1 y.2 ∨ s.PrimeAt y.1 y.2) ∧
      (s.chainCells x).length ≤ 2 * s.starCount + 1 := by
  -- all that a walk from the cell gathers is new, so the stars bound it
  have hbound : ∀ {k}, Walk.Gathers s k (Walk.start x).cells (s.chain x) → k ≤ s.starCount := by
    intro k hk
    have hle := Walk.starsAmong_le (s := s) (s.nodup_chain x)
    have hadd := hk.stars
    omega
  obtain ⟨rounds, why, hends⟩ := s.exists_chain_ends x
  obtain ⟨k, -, hk⟩ := hends.gathers
  refine ⟨⟨rounds, why, hends⟩, ?_, ?_, ?_, ?_⟩
  · intro rounds why cells h
    have hcells : cells = s.chain x := h.finish_eq.symm
    obtain ⟨l, hrounds, hl⟩ := h.gathers
    have hle := hbound (hcells ▸ hl)
    exact ⟨by omega, hcells⟩
  · exact State.mem_chainCells.2 (hk.sub (List.mem_singleton_self x))
  · intro y hy hne
    refine (hk.marked y (State.mem_chainCells.1 hy)).resolve_left fun hin => ?_
    exact hne (List.mem_singleton.1 hin)
  · have hlen := hk.length_le
    have hle := hbound hk
    rw [s.length_chainCells]
    simp only [Walk.start, List.length_singleton] at hlen
    omega

/-- Two stars and two primes in a circle. -/
def circling : State Nat 2 :=
  { State.fresh (.replicate 2 2 0) 0 with
    marks := ⟨#v[#v[.star, .prime], #v[.prime, .star]]⟩ }

/-- In the circle the walk passes all four cells and stops where it set out. -/
theorem every_walk_ends_in_a_circle :
    Walk.Ends circling (.start (1, 0)) 2 .primePassed [(1, 1), (0, 1), (0, 0), (1, 0)] ∧
      [(1, 1), (0, 1), (0, 0), (1, 0)] = circling.chain (1, 0) ∧ 2 ≤ circling.starCount + 1 ∧
      (circling.chainCells (1, 0)).length ≤ 2 * circling.starCount + 1 := by
  have hends : Walk.Ends circling (.start (1, 0)) 2 .primePassed
      [(1, 1), (0, 1), (0, 0), (1, 0)] :=
    .go rfl (.stop (.primePassed rfl (by decide) rfl (by decide)))
  obtain ⟨-, hall, -, -, hlen⟩ := every_walk_ends circling (1, 0)
  exact ⟨hends, (hall hends).2, (hall hends).1, hlen⟩

end OptimalAssignment.Hungarian
