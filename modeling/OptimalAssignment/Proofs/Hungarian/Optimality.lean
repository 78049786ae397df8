import Mathlib.Algebra.Order.Ring.Rat
import Mathlib.Tactic.Linarith
import OptimalAssignment.Proofs.Hungarian.Certificate

/-!
# Solves are optimal

The stars of a finished run are zeros of a matrix without negative entries that ranks permutations
as their costs do.  So no permutation is better by more than the tolerance for each row.
-/

namespace OptimalAssignment

variable {α : Type} {n : Nat}

section Exact

variable [AddCommGroup α] [LinearOrder α] [IsOrderedAddMonoid α]

/-- A total is as good as another one, up to some slack. -/
def Direction.AsGood (direction : Direction) (slack a b : α) : Prop :=
  match direction with
  | .minimize => a ≤ b + slack
  | .maximize => b - slack ≤ a

/-- Totals of as many costs compare as the totals of their scores do. -/
theorem Direction.asGood_of_costs {direction : Direction} {scores : Grid α n n} {slack : α}
    {ι κ : Type} {A : Finset ι} {B : Finset κ}
    {x : ι → Cell n n} {y : κ → Cell n n} (hcard : A.card = B.card)
    (h : ∑ a ∈ A, (scores.costs direction).entry (x a) ≤
      ∑ b ∈ B, (scores.costs direction).entry (y b) + slack) :
    direction.AsGood slack (∑ a ∈ A, scores.entry (x a)) (∑ b ∈ B, scores.entry (y b)) := by
  cases direction with
  | minimize => exact h
  | maximize =>
      have hentry : ∀ z, (scores.costs .maximize).entry z = scores.top - scores.entry z :=
        fun z => Grid.get_map _ _ _ _
      -- the largest score is counted as often on both sides
      simp only [hentry, Finset.sum_sub_distrib, Finset.sum_const, hcard] at h
      show ∑ b ∈ B, scores.entry (y b) - slack ≤ ∑ a ∈ A, scores.entry (x a)
      rw [sub_add] at h
      exact (sub_le_sub_iff_left _).1 h

namespace Hungarian

/-! ## The account of a solve -/

theorem begin_accounted (scores : Grid α n n) (direction : Direction) (t : α) :
    Accounted (scores.costs direction) (scores.costs direction).reduced
      (begin scores direction t).state where
  nonneg := Grid.reduce_nonneg _
  zero := begin_markedZero scores direction t
  along := Grid.along_eq_reduced_add _

/-- What the account says of a reached state, and what it says once the run is done. -/
structure Certified (scores : Grid α n n) (direction : Direction) (t : α)
    (past : List (Taken α n)) (r : Run α n) : Prop where
  nonneg : ∀ i j, 0 ≤ r.state.working.get i j
  counted : (adjustments past).length = r.state.adjustments
  amounts : ∀ {amount stars}, (amount, stars) ∈ adjustments past → t < amount
  zero : ∀ {i j}, r.state.StarAt i j ∨ r.state.PrimeAt i j → r.state.working.get i j ≤ t
  unchanged : ∀ {k}, k ∈ past → k.before.phase = .adjust → ∀ {i j},
    k.before.state.StarAt i j ∨ k.before.state.PrimeAt i j →
    k.after.state.working.get i j = k.before.state.working.get i j
  along : ∀ σ, (scores.costs direction).along σ =
    certificate (scores.costs direction) past + r.state.working.along σ
  monotone : ∀ {newer older}, past = newer ++ older →
    certificate (scores.costs direction) older ≤ certificate (scores.costs direction) past
  bound : ∀ σ, certificate (scores.costs direction) past ≤ (scores.costs direction).along σ
  tight : r.phase = .done → t = 0 → certificate (scores.costs direction) past =
    ((r.state.matching scores direction).pairs.map (scores.costs direction).entry).sum

theorem along_nonneg {g : Grid α n n} (h : ∀ i j, 0 ≤ g.get i j) (σ : Equiv.Perm (Fin n)) :
    0 ≤ g.along σ :=
  Finset.sum_nonneg fun i _ => h i (σ i)

theorem along_le {g : Grid α n n} {t : α} {σ : Equiv.Perm (Fin n)} (h : ∀ i, g.get i (σ i) ≤ t) :
    g.along σ ≤ n • t := by
  have hsum := Finset.sum_le_card_nsmul Finset.univ (fun i => g.get i (σ i)) t fun i _ => h i
  rwa [Finset.card_univ, Fintype.card_fin] at hsum

variable {scores : Grid α n n} {direction : Direction} {t : α} {patience : Option Nat}
  {trace : Bool} {past : List (Taken α n)} {r : Run α n}

theorem Course.accounted_begin (h : Course patience trace (begin scores direction t) past r) :
    Accounted (scores.costs direction) (certificate (scores.costs direction) past) r.state :=
  h.accounted (begin_sound scores direction t) (begin_accounted scores direction t)

/-- The total along the stars is what the certificate says, up to the tolerance for each row. -/
theorem Course.along_stars (h : Course patience trace (begin scores direction t) past r)
    {σ : Equiv.Perm (Fin n)} (hσ : ∀ i j, r.state.StarAt i j ↔ σ i = j) :
    (scores.costs direction).along σ ≤ certificate (scores.costs direction) past + n • t := by
  have hacc := h.accounted_begin
  rw [hacc.along σ]
  apply add_le_add_right
  apply along_le
  intro i
  have hzero := hacc.zero i (σ i) (.inl ((hσ i (σ i)).2 rfl))
  rw [h.tolerance] at hzero
  exact hzero

theorem Course.certified (h : Course patience trace (begin scores direction t) past r)
    (ht : 0 ≤ t) : Certified scores direction t past r := by
  have hsound := begin_sound scores direction t
  have hacc := h.accounted_begin
  have hbound : ∀ σ,
      certificate (scores.costs direction) past ≤ (scores.costs direction).along σ := by
    intro σ
    rw [hacc.along σ]
    exact le_add_of_nonneg_right (along_nonneg hacc.nonneg σ)
  exact
    { nonneg := hacc.nonneg
      counted := h.length_adjustments rfl
      amounts := fun ha => h.tolerance_lt_amount hsound ha
      zero := fun {i j} hm => by
        have hzero := hacc.zero i j hm
        rw [h.tolerance] at hzero
        exact hzero
      unchanged := fun hk hadj _ _ hm => h.adjust_marked hsound hk hadj hm
      along := hacc.along
      monotone := fun e => by
        subst e
        exact h.certificate_le hsound ht
      bound := hbound
      tight := fun hdone hzero => by
        subst hzero
        have hr := h.sound hsound
        rw [hdone] at hr
        -- the stars are zeros, so the certificate is their total
        obtain ⟨σ, hσ⟩ := hr.1.exists_perm hr.2
        have hmatrix := State.isMatrixOf_matching hσ scores direction
        have htotal : ((r.state.matching scores direction).pairs.map
            (scores.costs direction).entry).sum = (scores.costs direction).along σ := by
          rw [← Matching.costOf_of_perm (scores.costs direction) hmatrix]
          exact (total_eq_sum _).symm
        have hle := h.along_stars hσ
        rw [nsmul_zero, add_zero] at hle
        rw [htotal]
        exact le_antisymm (hbound σ) hle }

/-- The account of a solve in all of its states.  The matching of a finished solve costs what the
certificate says when nothing but zero is a zero. -/
theorem every_reached_state_is_certified (scores : Grid α n n) (direction : Direction) {t : α}
    (ht : 0 ≤ t) (patience : Option Nat) (trace : Bool) :
    (∀ {past r}, Course patience trace (begin scores direction t) past r →
      Certified scores direction t past r) ∧
    (0 < n → ∃ past last, Course patience trace (begin scores direction t) past last ∧
      (last.phase = .done ∧ (solve scores direction t patience trace).ending = .finished ∧
          (t = 0 → certificate (scores.costs direction) past =
            ((solve scores direction t patience trace).matching.pairs.map
              (scores.costs direction).entry).sum) ∨
        patience = some last.polls ∧
          (solve scores direction t patience trace).ending = .cancelled)) := by
  refine ⟨fun h => h.certified ht, fun hn => ?_⟩
  obtain ⟨past, last, h, hend⟩ := solve_ends (progresses_of_sub_self sub_self ht patience trace)
    (starCount_begin_pos_of_sub_self sub_self hn scores direction ht)
  refine ⟨past, last, h, ?_⟩
  rcases hend with ⟨hdone, hfinished, -, hmatching⟩ | hcancelled
  · left
    rw [hmatching]
    exact ⟨hdone, hfinished, (h.certified ht).tight hdone⟩
  · exact .inr hcancelled

def sampleCosts : Grid Int 2 2 := ⟨#v[#v[3, 1], #v[2, 5]]⟩

/-- Products of row and column, whose zeros after the reduction are in one row and one column. -/
def productCosts : Grid Int 3 3 := ⟨#v[#v[1, 2, 3], #v[3, 6, 9], #v[5, 10, 15]]⟩

/-- The certificate of a solve with an adjustment is the least total. -/
theorem every_reached_state_is_certified_sample :
    ∃ past last, Course none false (begin productCosts .minimize 0) past last ∧
      Certified productCosts .minimize 0 past last ∧ last.phase = .done ∧
      (adjustments past).length = 1 ∧ certificate (productCosts.costs .minimize) past = 14 := by
  obtain ⟨hstates, -⟩ :=
    every_reached_state_is_certified productCosts .minimize (le_refl 0) none false
  have hends : EndsWell productCosts .minimize 0 false :=
    endsWell_of_progress (progresses_of_sub_self sub_self (le_refl 0) none false)
      (starCount_begin_pos_of_sub_self sub_self (by decide) _ _ (le_refl 0))
  obtain ⟨past, last, h, hdone, hstate, -⟩ := hends.course
  have hcertified := hstates h
  refine ⟨past, last, h, hcertified, hdone, ?_, ?_⟩
  · rw [hcertified.counted, ← hstate]
    decide +kernel
  · rw [hcertified.tight hdone rfl, ← hstate]
    decide +kernel

/-! ## The best permutation -/

/-- A finished solve whose matching is a permutation, with no permutation better by more than the
slack. -/
structure Best (scores : Grid α n n) (direction : Direction) (slack : α) (solved : Solved α n) :
    Prop where
  finished : solved.ending = .finished
  sameDirection : solved.matching.direction = direction
  permutation : ∃ σ : Equiv.Perm (Fin n), Matching.IsMatrixOf solved.matching.matrix σ ∧
    solved.matching.rowIndices = List.finRange n ∧
    solved.matching.colIndices = (List.finRange n).map σ ∧
    solved.matching.cost = ∑ i, scores.get i (σ i)
  best : ∀ σ : Equiv.Perm (Fin n),
    direction.AsGood slack solved.matching.cost (∑ i, scores.get i (σ i))

omit [IsOrderedAddMonoid α] in
theorem best_of_perm {solved : Solved α n} {slack : α} {σ : Equiv.Perm (Fin n)}
    (hfinished : solved.ending = .finished)
    (hmatching : solved.matching = .ofMatrix scores direction solved.matching.matrix)
    (hmatrix : Matching.IsMatrixOf solved.matching.matrix σ)
    (hbest : ∀ τ, direction.AsGood slack (scores.along σ) (scores.along τ)) :
    Best scores direction slack solved := by
  have hcost : solved.matching.cost = scores.along σ := by
    rw [hmatching]
    exact Matching.costOf_of_perm scores hmatrix
  have hpairs : solved.matching.pairs = (List.finRange n).map fun i => (i, σ i) :=
    Matching.select_of_perm hmatrix
  have hrows : solved.matching.rowIndices = List.finRange n := by
    unfold Matching.rowIndices
    rw [hpairs, List.map_map]
    exact List.map_id _
  have hcols : solved.matching.colIndices = (List.finRange n).map σ := by
    unfold Matching.colIndices
    rw [hpairs, List.map_map]
    rfl
  exact
    { finished := hfinished
      sameDirection := by rw [hmatching]; rfl
      permutation := ⟨σ, hmatrix, hrows, hcols, hcost⟩
      best := fun τ => hcost ▸ hbest τ }

/-- The tolerance counts once for each row. -/
theorem solve_best (hn : 0 < n) (scores : Grid α n n) (direction : Direction) (ht : 0 ≤ t)
    (trace : Bool) : Best scores direction (n • t) (solve scores direction t none trace) := by
  obtain ⟨past, last, h, hend⟩ := solve_ends (progresses_of_sub_self sub_self ht none trace)
    (starCount_begin_pos_of_sub_self sub_self hn scores direction ht)
  rcases hend with ⟨hdone, hfinished, -, hmatching⟩ | ⟨hpat, -⟩
  · have hlast := h.sound (begin_sound scores direction t)
    rw [hdone] at hlast
    obtain ⟨σ, hσ⟩ := hlast.1.exists_perm hlast.2
    apply best_of_perm hfinished
    · rw [hmatching]
      rfl
    · rw [hmatching]
      exact State.isMatrixOf_matching hσ scores direction
    · intro τ
      -- the certificate lies between the total along the stars and any other one
      have hbound := (h.certified ht).bound τ
      have hle : (scores.costs direction).along σ ≤ (scores.costs direction).along τ + n • t :=
        (h.along_stars hσ).trans (add_le_add_left hbound _)
      exact Direction.asGood_of_costs (x := fun i => (i, σ i)) (y := fun i => (i, τ i)) rfl hle
  · cases hpat

end Hungarian
end Exact

/-! ## Rational scores -/

namespace Hungarian

variable {scores : Grid ℚ n n}

/-- The total along a permutation of integer scores is an integer. -/
theorem exists_along_eq_intCast (h : ∀ i j, ∃ z : Int, scores.get i j = z)
    (σ : Equiv.Perm (Fin n)) : ∃ z : Int, scores.along σ = z := by
  choose f hf using h
  refine ⟨∑ i, f i (σ i), ?_⟩
  unfold Grid.along
  rw [Int.cast_sum]
  exact Finset.sum_congr rfl fun i _ => hf i (σ i)

/-- Between integers a slack below one is none. -/
theorem asGood_zero_of_intCast {direction : Direction} {a b : Int} {slack : ℚ}
    (h : direction.AsGood slack (a : ℚ) b) (hslack : slack < 1) : direction.AsGood 0 (a : ℚ) b := by
  cases direction with
  | minimize =>
      have hlt : (a : ℚ) < b + 1 := lt_of_le_of_lt h (by linarith)
      have hle : a ≤ b := Int.lt_add_one_iff.1 (by exact_mod_cast hlt)
      show (a : ℚ) ≤ b + 0
      rw [add_zero]
      exact_mod_cast hle
  | maximize =>
      have hlt : (b : ℚ) < a + 1 := by
        have hle : (b : ℚ) - slack ≤ a := h
        linarith
      have hle : b ≤ a := Int.lt_add_one_iff.1 (by exact_mod_cast hlt)
      show (b : ℚ) - 0 ≤ a
      rw [sub_zero]
      exact_mod_cast hle

/-- A solve over the rationals finds a best permutation, up to the tolerance for each row, and a
best one if that cannot make a difference. -/
theorem every_solve_is_best (hn : 0 < n) (scores : Grid ℚ n n) (direction : Direction) {t : ℚ}
    (ht : 0 ≤ t) (trace : Bool) :
    Best scores direction (n * t) (solve scores direction t none trace) ∧
    (t = 0 ∨ (∀ i j, ∃ z : Int, scores.get i j = z) ∧ n * t < 1 →
      Best scores direction 0 (solve scores direction t none trace)) := by
  have hbest : Best scores direction (n * t) (solve scores direction t none trace) := by
    rw [← nsmul_eq_mul]
    exact solve_best hn scores direction ht trace
  refine ⟨hbest, ?_⟩
  rintro (rfl | ⟨hint, hslack⟩)
  · rwa [mul_zero] at hbest
  · obtain ⟨σ, hmatrix, hrows, hcols, hcost⟩ := hbest.permutation
    refine ⟨hbest.finished, hbest.sameDirection, hbest.permutation, fun τ => ?_⟩
    have hgood := hbest.best τ
    obtain ⟨a, ha⟩ := exists_along_eq_intCast hint σ
    obtain ⟨b, hb⟩ := exists_along_eq_intCast hint τ
    unfold Grid.along at ha hb
    rw [hcost, ha, hb] at hgood ⊢
    exact asGood_zero_of_intCast hgood hslack

/-- Integer scores and a tolerance that cannot make a difference. -/
theorem every_solve_is_best_sample :
    Best (sampleCosts.map fun (z : Int) => (z : ℚ)) .maximize 0
      (solve (sampleCosts.map fun (z : Int) => (z : ℚ)) .maximize (1 / 4) none false) := by
  have hint : ∀ i j, ∃ z : Int, (sampleCosts.map fun (z : Int) => (z : ℚ)).get i j = z :=
    fun i j => ⟨sampleCosts.get i j, Grid.get_map _ _ i j⟩
  exact (every_solve_is_best (by decide) _ .maximize (by norm_num) false).2
    (.inr ⟨hint, by norm_num⟩)

end Hungarian
end OptimalAssignment
