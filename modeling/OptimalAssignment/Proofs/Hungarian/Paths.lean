import Mathlib.Data.Nat.SuccPred
import Mathlib.Order.Interval.Set.Monotone
import OptimalAssignment.Proofs.Hungarian.Augmentation

/-!
# Alternating paths

The chain of a flip is a path that goes from a prime to the star in its column and from a star to
the prime in its row.  The primes decide the path: each star between two of them stands in the
column of the one and in the row of the other.  The rows of the primes are ranked by the time at
which they were primed, and the ranks fall along the path, so it comes to no row and to no column
twice, also where several primes share a column.
-/

namespace OptimalAssignment.Hungarian

variable {α : Type} {n : Nat}

/-- The cell in the column of a prime and in the row of the next. -/
def corner (p : Nat → Cell n n) (i : Nat) : Cell n n :=
  ((p (i + 1)).1, (p i).2)

/-- The primes up to a place and the corners between them, newest first. -/
def pathCells (p : Nat → Cell n n) : Nat → List (Cell n n)
  | 0 => [p 0]
  | k + 1 => p (k + 1) :: corner p k :: pathCells p k

theorem length_pathCells (p : Nat → Cell n n) (k : Nat) : (pathCells p k).length = 2 * k + 1 := by
  induction k with
  | zero => rfl
  | succ k ih =>
      simp only [pathCells, List.length_cons, ih]
      omega

theorem mem_pathCells (p : Nat → Cell n n) {i k : Nat} (hi : i ≤ k) : p i ∈ pathCells p k := by
  induction k with
  | zero =>
      rw [Nat.le_zero.1 hi]
      exact List.mem_singleton_self _
  | succ k ih =>
      rcases Nat.le_succ_iff.1 hi with hle | rfl
      · exact List.mem_cons_of_mem _ (List.mem_cons_of_mem _ (ih hle))
      · exact List.mem_cons_self

theorem pathCells_congr {p q : Nat → Cell n n} {k : Nat} (h : ∀ i ≤ k, p i = q i) :
    pathCells p k = pathCells q k := by
  induction k with
  | zero => rw [pathCells, pathCells, h 0 (Nat.le_refl 0)]
  | succ k ih =>
      have hlast : p (k + 1) = q (k + 1) := h (k + 1) (Nat.le_refl _)
      have hk : p k = q k := h k (Nat.le_succ k)
      have hcells := ih fun i hi => h i (Nat.le_succ_of_le hi)
      rw [pathCells, pathCells, corner, corner, hlast, hk, hcells]

/-- A path from a cell through the primes `p 0` to `p k`. -/
structure AlternatingPath (s : State α n) (x : Cell n n) (p : Nat → Cell n n) (k : Nat) : Prop where
  first : p 0 = x
  prime : ∀ i ≤ k, s.PrimeAt (p i).1 (p i).2
  /-- The corner is the one star in the column of its prime. -/
  star : ∀ i < k, ∀ y : Cell n n, s.StarAt y.1 y.2 ∧ y.2 = (p i).2 ↔ y = corner p i
  /-- The next prime is the one in the row of the star. -/
  next : ∀ i < k, ∀ y : Cell n n, s.PrimeAt y.1 y.2 ∧ y.1 = (corner p i).1 ↔ y = p (i + 1)
  rows : ∀ i ≤ k, ∀ j ≤ k, (p i).1 = (p j).1 → i = j
  cols : ∀ i ≤ k, ∀ j ≤ k, (p i).2 = (p j).2 → i = j
  last : ∀ i, ¬s.StarAt i (p k).2

/-! ## Trails as paths -/

/-- Every corner is a star, and a prime comes after it. -/
def Linked (s : State α n) (p : Nat → Cell n n) (k : Nat) : Prop :=
  ∀ i < k, s.StarAt (corner p i).1 (corner p i).2 ∧ s.PrimeAt (p (i + 1)).1 (p (i + 1)).2

theorem Trail.exists_linked {s : State α n} {x q : Cell n n} {cells : List (Cell n n)}
    (h : Trail s x cells q) :
    ∃ p k, p 0 = x ∧ p k = q ∧ cells = pathCells p k ∧ Linked s p k := by
  induction h with
  | start => exact ⟨fun _ => x, 0, rfl, rfl, rfl, fun i hi => absurd hi (Nat.not_lt_zero i)⟩
  | @extend cells q r c _ hs hp ih =>
      obtain ⟨p, k, hfirst, hlast, hcells, hlinked⟩ := ih
      let longer : Nat → Cell n n := fun i => if i ≤ k then p i else (r, c)
      have hold : ∀ i ≤ k, longer i = p i := fun i hi => if_pos hi
      have hnew : longer (k + 1) = (r, c) := if_neg (Nat.not_succ_le_self k)
      refine ⟨longer, k + 1, ?_, hnew, ?_, fun i hi => ?_⟩
      · rw [hold 0 (Nat.zero_le k), hfirst]
      · rw [pathCells, corner, hnew, hold k (Nat.le_refl k), hlast, pathCells_congr hold, hcells]
      · rw [corner]
        rcases Nat.lt_succ_iff_lt_or_eq.1 hi with hlt | rfl
        · rw [hold i (Nat.le_of_lt hlt), hold (i + 1) hlt]
          exact hlinked i hlt
        · rw [hnew, hold i (Nat.le_refl i), hlast]
          exact ⟨hs, hp⟩

namespace Linked

variable {s : State α n} {p : Nat → Cell n n} {k : Nat}

theorem prime (h : Linked s p k) (hfirst : s.PrimeAt (p 0).1 (p 0).2) :
    ∀ i ≤ k, s.PrimeAt (p i).1 (p i).2 := by
  intro i hi
  cases i with
  | zero => exact hfirst
  | succ i => exact (h i hi).2

theorem rows (h : Linked s p k) (hfirst : s.PrimeAt (p 0).1 (p 0).2) {rank : Fin n → Nat}
    (hrank : ∀ {i j k}, s.PrimeAt i j → s.StarAt k j → rank k < rank i) :
    ∀ i ≤ k, ∀ j ≤ k, (p i).1 = (p j).1 → i = j := by
  have hfall : StrictAntiOn (fun i => rank (p i).1) (Set.Iic k) :=
    strictAntiOn_Iic_of_succ_lt fun i hi =>
      hrank (h.prime hfirst i (Nat.le_of_lt hi)) (h i hi).1
  intro i hi j hj hij
  exact hfall.injOn hi hj (congrArg rank hij)

end Linked

namespace State.Balanced

variable {s : State α n} {x : Cell n n}

/-- The trail of a carried cell is a path, since its primes are ranked. -/
theorem alternatingPath (h : s.Balanced (some x)) {p : Nat → Cell n n} {k : Nat}
    (ht : Trail s x (pathCells p k) (p k)) (hfirst : p 0 = x) (hlinked : Linked s p k)
    (hlast : ∀ i, ¬s.StarAt i (p k).2) : AlternatingPath s x p k := by
  obtain ⟨rank, hrank⟩ := h.ranked
  have hstart : s.PrimeAt (p 0).1 (p 0).2 := hfirst ▸ h.prime_carried
  have hprime := hlinked.prime hstart
  have hrows := hlinked.rows hstart hrank
  exact
    { first := hfirst
      prime := hprime
      star := fun i hi y => by
        constructor
        · rintro ⟨hy, hcol⟩
          exact Prod.ext (h.star_col (hcol ▸ hy) (hlinked i hi).1) hcol
        · rintro rfl
          exact ⟨(hlinked i hi).1, rfl⟩
      next := fun i hi y => by
        constructor
        · rintro ⟨hy, hrow⟩
          have hy' : s.PrimeAt (p (i + 1)).1 y.2 := hrow ▸ hy
          exact Prod.ext hrow (h.prime_unique hy' (hlinked i hi).2)
        · rintro rfl
          exact ⟨(hlinked i hi).2, rfl⟩
      rows := hrows
      -- primes of the trail in one column are in one row, and no row comes twice
      cols := fun i hi j hj hij => by
        have hmem : ((p j).1, (p i).2) ∈ pathCells p k := by
          rw [hij]
          exact mem_pathCells p hj
        have hpj : s.PrimeAt (p j).1 (p i).2 := by
          rw [hij]
          exact hprime j hj
        have hrow : (p i).1 = (p j).1 :=
          ht.prime_col_unique h.prime_carried hrank (mem_pathCells p hi) (hprime i hi) hmem hpj
        exact hrows i hi j hj hrow
      last := hlast }

theorem exists_alternatingPath (h : s.Balanced (some x)) :
    ∃ p k, AlternatingPath s x p k ∧ s.chain x = pathCells p k := by
  obtain ⟨q, ht, hend⟩ := h.chain_trail
  obtain ⟨p, k, hfirst, rfl, hcells, hlinked⟩ := ht.exists_linked
  rw [hcells] at ht
  exact ⟨p, k, h.alternatingPath ht hfirst hlinked hend, hcells⟩

theorem chain_ends (h : s.Balanced (some x)) {k : Nat} (hlen : (s.chain x).length = 2 * k + 1) :
    Walk.Ends s (.start x) (k + 1) .starless (s.chain x) := by
  obtain ⟨rounds, why, hends⟩ := s.exists_chain_ends x
  obtain rfl : why = .starless := (h.ends_trail hends .start rfl).1
  have hrounds := hends.length_of_starless rfl
  rw [hlen] at hrounds
  simp only [Walk.start, List.length_singleton] at hrounds
  rw [show k + 1 = rounds by omega]
  exact hends

end State.Balanced

/-- Whenever a run comes to a flip, the chain from its cell is an alternating path, and the walk
along it is only ever stopped by a column without a star. -/
theorem every_flip_follows_a_path {α : Type} [Zero α] [Add α] [Sub α] [LE α] [DecidableLE α]
    {n : Nat} (scores : Grid α n n) (direction : Direction) (t : α) (patience : Option Nat)
    (trace : Bool) {past : List (Taken α n)} {r : Run α n} {x : Cell n n}
    (h : Course patience trace (begin scores direction t) past r) (hx : r.phase = .flip x) :
    ∃ p k, AlternatingPath r.state x p k ∧ r.state.chain x = pathCells p k ∧
      (∀ y, y ∈ r.state.chainCells x ↔ y ∈ pathCells p k) ∧
      (r.state.chainCells x).length = 2 * k + 1 ∧
      Walk.Ends r.state (.start x) (k + 1) .starless (r.state.chain x) ∧
      ∀ {rounds why cells}, Walk.Ends r.state (.start x) rounds why cells → why = .starless := by
  have hsound := h.sound (begin_sound scores direction t)
  rw [hx] at hsound
  obtain ⟨p, k, hpath, hcells⟩ := hsound.1.exists_alternatingPath
  have hlen : (r.state.chain x).length = 2 * k + 1 := by rw [hcells, length_pathCells]
  refine ⟨p, k, hpath, hcells, fun y => ?_, ?_, hsound.1.chain_ends hlen, fun hends => ?_⟩
  · rw [State.mem_chainCells, hcells]
  · rw [State.length_chainCells, hlen]
  · exact (hsound.1.ends_trail hends .start rfl).1

/-- Scores whose second and third row are both primed in the first column. -/
def sharedScores : Grid Nat 4 4 :=
  ⟨#v[#v[0, 2, 2, 0], #v[0, 0, 2, 1], #v[0, 2, 1, 0], #v[2, 0, 2, 1]]⟩

/-- Two primes share the first column, and the path passes one of them. -/
theorem every_flip_follows_a_path_shared :
    ∃ past r, Course none false (begin sharedScores .minimize 0) past r ∧
      r.phase = .flip (3, 1) ∧ r.state.PrimeAt 1 0 ∧ r.state.PrimeAt 2 0 ∧
      r.state.chain (3, 1) = [(0, 3), (0, 0), (1, 0), (1, 1), (3, 1)] ∧
      ∃ p, AlternatingPath r.state (3, 1) p 2 ∧ r.state.chain (3, 1) = pathCells p 2 := by
  have hcourse : ((begin sharedScores .minimize 0).play none false 6).1 = .unfinished := by
    decide +kernel
  obtain ⟨past, h⟩ := Course.of_unfinished hcourse
  have hx : ((begin sharedScores .minimize 0).play none false 6).2.phase = .flip (3, 1) := by
    decide +kernel
  have hchain : ((begin sharedScores .minimize 0).play none false 6).2.state.chain (3, 1) =
      [(0, 3), (0, 0), (1, 0), (1, 1), (3, 1)] := by
    decide +kernel
  obtain ⟨p, k, hpath, hcells, -⟩ := every_flip_follows_a_path _ _ _ _ _ h hx
  have hk : k = 2 := by
    have hlen := congrArg List.length hcells
    rw [hchain, length_pathCells, show List.length _ = 5 from rfl] at hlen
    omega
  subst hk
  exact ⟨past, _, h, hx, by decide +kernel, by decide +kernel, hchain, p, hpath, hcells⟩

end OptimalAssignment.Hungarian
