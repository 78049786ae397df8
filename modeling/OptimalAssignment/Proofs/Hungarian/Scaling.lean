import Mathlib.Algebra.BigOperators.Group.List.Lemmas
import Mathlib.Algebra.Order.Ring.Defs
import Mathlib.Algebra.Ring.Basic
import OptimalAssignment.Proofs.Hungarian.Lattice

/-!
# Scaled scores

A map that keeps sums and the order of the entries takes a run to a run, because a run only adds,
subtracts and compares.  Taking a positive multiple of all scores and of the tolerance is such a
map, so it changes the unit that a solve counts in and nothing else.
-/

namespace OptimalAssignment

variable {α β : Type} {n : Nat}

section Maps

variable [AddCommGroup α] [LinearOrder α] [AddCommGroup β] [LinearOrder β] {f : α →+ β}
  (hf : StrictMono f)

namespace Grid

variable {r c : Nat}

include hf in
theorem orderedBy_of_strictMono (g : Grid α r c) : g.OrderedBy f :=
  fun _ _ _ _ => hf.le_iff_le

include hf in
theorem reduce_map (g : Grid α r c) : (g.map f).reduce = g.reduce.map f := by
  unfold reduce
  rw [(g.orderedBy_of_strictMono hf).lowerRows_map fun _ _ => map_sub f _ _,
    (g.lowerRows.orderedBy_of_strictMono hf).lowerColumns_map fun _ _ => map_sub f _ _]

include hf in
theorem normalize_map (g : Grid α r c) (direction : Direction) :
    (g.map f).normalize direction = (g.normalize direction).map f := by
  unfold normalize
  rw [(g.orderedBy_of_strictMono hf).orient_map direction fun _ _ => map_sub f _ _,
    reduce_map hf]

end Grid

omit [LinearOrder α] [LinearOrder β] in
theorem Matching.costOf_map (f : α →+ β) (scores : Grid α n n) (matrix : Grid Nat n n) :
    costOf (scores.map f) matrix = f (costOf scores matrix) := by
  have hentries : (matrix.select (· != 0)).map (scores.map f).entry =
      ((matrix.select (· != 0)).map scores.entry).map f := by
    rw [List.map_map]
    exact List.map_congr_left fun x _ => Grid.get_map _ _ _ _
  unfold costOf
  rw [total_eq_sum, total_eq_sum, hentries, map_list_sum]

namespace Hungarian

omit [LinearOrder α] [LinearOrder β] in
theorem State.shift_map (f : α →+ β) (t : β) (s : State α n) (a : α) :
    (s.map f t).shift (f a) = (s.shift a).map f := by
  ext i j
  have hworking : (s.map f t).working.get i j = f (s.working.get i j) := Grid.get_map _ _ _ _
  have hadded : (if s.ColCovered j then f a else 0) = f (if s.ColCovered j then a else 0) := by
    rw [apply_ite f, map_zero]
  have htaken : (if s.RowCovered i then 0 else f a) = f (if s.RowCovered i then 0 else a) := by
    rw [apply_ite f, map_zero]
  rw [Grid.get_map, get_shift_eq, get_shift_eq, hworking, map_sub, map_add, ← hadded, ← htaken]
  rfl

include hf in
theorem alwaysFaithful_of_strictMono (scores : Grid α n n) (direction : Direction) (t : α)
    (patience : Option Nat) (trace : Bool) :
    (begin scores direction t).AlwaysFaithful f (f t) patience trace := by
  intro past r h
  refine ⟨⟨r.state.working.orderedBy_of_strictMono hf, fun i j => ?_⟩, fun _ {a} _ =>
    State.shift_map f (f t) r.state a⟩
  have htol : r.state.tolerance = t := h.tolerance
  rw [htol]
  exact hf.le_iff_le

include hf in
theorem inStep_of_strictMono (scores : Grid α n n) (direction : Direction) (t : α)
    (patience : Option Nat) (trace : Bool) :
    InStep (State.map f (f t)) patience trace (begin scores direction t)
      (begin (scores.map f) direction (f t)) := by
  rw [begin_map (s := t) (scores.normalize_map hf direction)]
  exact inStep_map (alwaysFaithful_of_strictMono hf scores direction t patience trace)

end Hungarian
end Maps

/-! ## Multiples -/

namespace Hungarian

variable [Ring α] [LinearOrder α] [IsStrictOrderedRing α] {k : α}

/-- A solve of multiples, with the same multiple of the tolerance, is the solve with its entries
multiplied, and so is its cost. -/
theorem every_scaled_solve_keeps_step (hk : 0 < k) (scores : Grid α n n) (direction : Direction)
    (t : α) (trace : Bool) :
    (∀ patience,
      InStep (State.map (k * ·) (k * t)) patience trace (begin scores direction t)
        (begin (scores.map (k * ·)) direction (k * t)) ∧
      (solve scores direction t patience trace).Alike (State.map (k * ·) (k * t))
        (solve (scores.map (k * ·)) direction (k * t) patience trace) ∧
      (solve (scores.map (k * ·)) direction (k * t) patience trace).matching.cost =
        k * (solve scores direction t patience trace).matching.cost) ∧
    (0 < n → 0 ≤ t →
      (solve scores direction t none trace).ending = .finished ∧
      (solve (scores.map (k * ·)) direction (k * t) none trace).ending = .finished) := by
  have hmono : StrictMono (AddMonoidHom.mulLeft k) := fun _ _ hlt => mul_lt_mul_of_pos_left hlt hk
  have hstep : ∀ patience, InStep (State.map (k * ·) (k * t)) patience trace
      (begin scores direction t) (begin (scores.map (k * ·)) direction (k * t)) := fun patience =>
    inStep_of_strictMono hmono scores direction t patience trace
  have halike := fun patience => (hstep patience).solve_alike fun _ => rfl
  refine ⟨fun patience => ⟨hstep patience, halike patience, ?_⟩, fun hn ht => ?_⟩
  -- the marks are the same, so the costs are totals over the same cells
  · rw [solve_matching, solve_matching, (halike patience).state]
    exact Matching.costOf_map (AddMonoidHom.mulLeft k) scores _
  · have hfinished := (solve_best hn scores direction ht trace).finished
    exact ⟨hfinished, (halike none).ending.trans hfinished⟩

/-- Two thirds of a solve of halves with an adjustment and a tolerance. -/
theorem every_scaled_solve_keeps_step_thirds :
    (0 : ℚ) < 2 / 3 ∧
    InStep (State.map ((2 / 3 : ℚ) * ·) (2 / 3 * (1 / 10 ^ 10))) none false
      (begin halfScores .minimize (1 / 10 ^ 10))
      (begin (halfScores.map ((2 / 3 : ℚ) * ·)) .minimize (2 / 3 * (1 / 10 ^ 10))) ∧
    (solve (halfScores.map ((2 / 3 : ℚ) * ·)) .minimize (2 / 3 * (1 / 10 ^ 10)) none
      false).matching.cost =
        2 / 3 * (solve halfScores .minimize (1 / 10 ^ 10) none false).matching.cost ∧
    (solve halfScores .minimize (1 / 10 ^ 10) none false).ending = .finished ∧
    (solve halfScores .minimize (1 / 10 ^ 10) none false).run.state.adjustments = 1 := by
  have hk : (0 : ℚ) < 2 / 3 := by norm_num
  obtain ⟨hstep, hfinished⟩ :=
    every_scaled_solve_keeps_step hk halfScores .minimize (1 / 10 ^ 10) false
  obtain ⟨hin, -, hcost⟩ := hstep none
  exact ⟨hk, hin, hcost, (hfinished (by decide) (by norm_num)).1, by decide +kernel⟩

end Hungarian
end OptimalAssignment
