import Mathlib.Algebra.Group.Subgroup.ZPowers.Basic
import Mathlib.Algebra.Order.Group.Basic
import OptimalAssignment.Proofs.Hungarian.InStep

/-!
# Scores on a lattice

In exact arithmetic a run only adds and subtracts entries, so these stay in any group that holds the
scores.  If the scores are whole multiples of an amount, all entries are, and a tolerance below this
amount counts nothing as zero that is not.  So all such tolerances make the same run.
-/

namespace OptimalAssignment

variable {α : Type} {n : Nat}

section Groups

variable [AddCommGroup α]

namespace Grid

variable {r c : Nat} {g : Grid α r c} {H : AddSubgroup α}

/-- All entries lie in the group. -/
def Within (H : AddSubgroup α) (g : Grid α r c) : Prop :=
  ∀ i j, g.get i j ∈ H

theorem Within.shift {s : Hungarian.State α n} (h : s.working.Within H) {a : α} (ha : a ∈ H) :
    (s.shift a).Within H := by
  intro i j
  have hadded : (if s.ColCovered j then a else 0) ∈ H := by
    split
    · exact ha
    · exact H.zero_mem
  have htaken : (if s.RowCovered i then 0 else a) ∈ H := by
    split
    · exact H.zero_mem
    · exact ha
  rw [Hungarian.State.get_shift_eq]
  exact H.sub_mem (H.add_mem (h i j) hadded) htaken

theorem Within.normalize [LinearOrder α] (h : g.Within H) (direction : Direction) :
    (g.normalize direction).Within H :=
  forall_normalize (ordered_linear.mono fun _ => trivial)
    (fun hx hy _ => H.sub_mem hx hy) h direction

end Grid

namespace Hungarian

theorem Course.within [LinearOrder α] {H : AddSubgroup α} {scores : Grid α n n}
    (hscores : scores.Within H) {direction : Direction} {t : α} {patience : Option Nat}
    {trace : Bool} {past : List (Taken α n)} {r : Run α n}
    (h : Course patience trace (begin scores direction t) past r) : r.state.working.Within H := by
  induction h with
  | here => exact hscores.normalize direction
  | @turn past r s _ hs ih =>
      have hadv := Run.advance_of_turn hs
      -- only an adjustment changes entries, and its amount is an entry itself
      by_cases hadj : r.phase = .adjust
      · rw [hadj] at hadv
        obtain ⟨-, a, ha, hstate⟩ := hadv.of_adjust
        obtain ⟨i, j, -, -, hget⟩ := State.leastOpen?_mem ha
        rw [hstate]
        exact ih.shift (hget ▸ ih i j)
      · rw [(hadv.frame.2.2 hadj).1]
        exact ih

end Hungarian
end Groups

/-! ## Tolerances below the distance of the lattice -/

theorem Grid.map_id {r c : Nat} (g : Grid α r c) : g.map id = g :=
  Grid.ext fun i j => Grid.get_map _ _ i j

namespace Hungarian

def State.tolerating (t : α) (s : State α n) : State α n :=
  { s with tolerance := t }

theorem State.map_id (t : α) : State.map id t = (tolerating t : State α n → State α n) := by
  funext s
  unfold map tolerating
  rw [Grid.map_id, Option.map_id]
  rfl

section Lattices

variable [AddCommGroup α] [LinearOrder α] [IsOrderedAddMonoid α] {d t : α}

theorem le_iff_of_multiple {x : α} (hx : x ∈ AddSubgroup.zmultiples d) (ht : 0 ≤ t)
    (htd : t < d) : x ≤ t ↔ x ≤ 0 := by
  obtain ⟨z, rfl⟩ := AddSubgroup.mem_zmultiples_iff.1 hx
  refine ⟨fun hle => ?_, fun hle => hle.trans ht⟩
  by_contra hpos
  have hd : 0 < d := lt_of_le_of_lt ht htd
  -- a positive multiple is at least the distance itself
  have hz : 0 < z := by
    rw [← zsmul_lt_zsmul_iff_left hd, zero_zsmul]
    exact not_le.1 hpos
  have hge : d ≤ z • d := by
    calc d = (1 : ℤ) • d := (one_zsmul d).symm
      _ ≤ z • d := (zsmul_le_zsmul_iff_left hd).2 hz
  exact absurd htd (not_lt.2 (hge.trans hle))

variable {t₁ t₂ : α} {scores : Grid α n n}

theorem alwaysFaithful_of_multiples (hscores : scores.Within (AddSubgroup.zmultiples d))
    (direction : Direction) (h₁ : 0 ≤ t₁ ∧ t₁ < d) (h₂ : 0 ≤ t₂ ∧ t₂ < d)
    (patience : Option Nat) (trace : Bool) :
    (begin scores direction t₁).AlwaysFaithful id t₂ patience trace := by
  intro past r h
  have hwithin := h.within hscores
  refine ⟨⟨fun _ _ _ _ => Iff.rfl, fun i j => ?_⟩, fun _ {a} _ => ?_⟩
  · have htol : r.state.tolerance = t₁ := h.tolerance
    rw [htol, id, le_iff_of_multiple (hwithin i j) h₁.1 h₁.2,
      le_iff_of_multiple (hwithin i j) h₂.1 h₂.2]
  · rw [State.map_id, Grid.map_id]
    rfl

/-- Which of the tolerances below the distance of the lattice a solve has makes no difference. -/
theorem every_lattice_solve_ignores_its_tolerance
    (hscores : ∀ i j, ∃ z : ℤ, z • d = scores.get i j) (direction : Direction)
    (h₁ : 0 ≤ t₁ ∧ t₁ < d) (h₂ : 0 ≤ t₂ ∧ t₂ < d) (patience : Option Nat) (trace : Bool) :
    InStep (State.tolerating t₂) patience trace (begin scores direction t₁)
      (begin scores direction t₂) ∧
    (solve scores direction t₁ patience trace).Alike (State.tolerating t₂)
      (solve scores direction t₂ patience trace) ∧
    (solve scores direction t₂ patience trace).matching =
      (solve scores direction t₁ patience trace).matching ∧
    (0 < n → (solve scores direction t₁ none trace).ending = .finished) := by
  have hstep : InStep (State.tolerating t₂) patience trace (begin scores direction t₁)
      (begin scores direction t₂) := by
    have himage := inStep_map (alwaysFaithful_of_multiples
      (fun i j => AddSubgroup.mem_zmultiples_iff.2 (hscores i j)) direction h₁ h₂ patience trace)
    have hbegin : (begin scores direction t₁).map id t₂ = begin scores direction t₂ := by
      unfold Run.map
      rw [State.map_id]
      rfl
    rwa [hbegin, State.map_id] at himage
  have halike := hstep.solve_alike fun _ => rfl
  refine ⟨hstep, halike, ?_, fun hn => (solve_best hn scores direction h₁.1 trace).finished⟩
  rw [solve_matching, solve_matching, halike.state]
  rfl

end Lattices

/-- Halves of the products of row and column. -/
def halfScores : Grid ℚ 3 3 :=
  .ofFn fun i j => (i.val + 1) * (j.val + 1) / 2

/-- A solve of halves with an adjustment, without a tolerance and with a small one. -/
theorem every_lattice_solve_ignores_its_tolerance_halves :
    InStep (State.tolerating (1 / 10 ^ 10)) none false (begin halfScores .minimize 0)
      (begin halfScores .minimize (1 / 10 ^ 10)) ∧
    (solve halfScores .minimize (1 / 10 ^ 10) none false).matching =
      (solve halfScores .minimize 0 none false).matching ∧
    (solve halfScores .minimize 0 none false).ending = .finished ∧
    (solve halfScores .minimize 0 none false).run.state.adjustments = 1 := by
  have hscores : ∀ i j, ∃ z : ℤ, z • (1 / 2 : ℚ) = halfScores.get i j := by
    intro i j
    refine ⟨(i.val + 1) * (j.val + 1), ?_⟩
    unfold halfScores
    rw [Grid.get_ofFn, zsmul_eq_mul]
    push_cast
    ring
  have hnone : (0 : ℚ) ≤ 0 ∧ (0 : ℚ) < 1 / 2 := by norm_num
  have hsmall : (0 : ℚ) ≤ 1 / 10 ^ 10 ∧ (1 / 10 ^ 10 : ℚ) < 1 / 2 := by norm_num
  obtain ⟨hstep, -, hmatching, hfinished⟩ :=
    every_lattice_solve_ignores_its_tolerance hscores .minimize hnone hsmall none false
  exact ⟨hstep, hmatching, hfinished (by decide), by decide +kernel⟩

end Hungarian
end OptimalAssignment
