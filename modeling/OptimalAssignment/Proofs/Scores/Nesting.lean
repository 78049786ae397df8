import Mathlib.Algebra.BigOperators.Group.List.Basic
import OptimalAssignment.Scores.Nesting

/-!
# Cells of nested lists

Nested lists of a shape have as many cells as the shape says.  If there are two levels, the cells
are the items of the rows, one row after the other.  A value that is no list is the only cell of an
array without dimensions.
-/

namespace OptimalAssignment.Nesting

/-! ## Levels -/

theorem commonLength?_cons (v : Value) (vs : List Value) : commonLength? (v :: vs) =
    if (v :: vs).all (fun w => isList w && (items w).length == (items v).length)
      then some (items v).length else none :=
  rfl

/-- A level belongs to the shape if all of its values are lists of one length. -/
theorem commonLength?_eq_some {vs : List Value} {n : Nat} (h : commonLength? vs = some n) :
    ∀ w ∈ vs, isList w = true ∧ (items w).length = n := by
  cases vs with
  | nil => cases h
  | cons v vs =>
      rw [commonLength?_cons] at h
      split at h
      · rename_i hall
        obtain rfl := Option.some.inj h
        intro w hw
        have hboth := List.all_eq_true.1 hall w hw
        rw [Bool.and_eq_true, beq_iff_eq] at hboth
        exact hboth
      · cases h

theorem commonLength?_of_alike {vs : List Value} {n : Nat}
    (h : ∀ w ∈ vs, isList w = true ∧ (items w).length = n) (hne : vs ≠ []) :
    commonLength? vs = some n := by
  cases vs with
  | nil => exact absurd rfl hne
  | cons v vs =>
      have hv := (h v List.mem_cons_self).2
      rw [commonLength?_cons, if_pos, hv]
      rw [List.all_eq_true]
      intro w hw
      rw [hv, (h w hw).1, (h w hw).2, Bool.true_and, beq_self_eq_true]

/-- No level with a leaf belongs to the shape. -/
theorem commonLength?_leaf {vs : List Value} {w : Value} (hw : w ∈ vs) (h : isList w = false) :
    commonLength? vs = none := by
  cases hn : commonLength? vs with
  | none => rfl
  | some n =>
      rw [(commonLength?_eq_some hn w hw).1] at h
      cases h

theorem levels_succ_some {vs : List Value} {n : Nat} (h : commonLength? vs = some n)
    (depth : Nat) : levels (depth + 1) vs =
      (n :: (levels depth (vs.flatMap items)).1, (levels depth (vs.flatMap items)).2) := by
  rw [levels, h]

theorem levels_succ_none {vs : List Value} (h : commonLength? vs = none) (depth : Nat) :
    levels (depth + 1) vs = ([], vs) := by
  rw [levels, h]

theorem levels_nil (depth : Nat) : levels depth [] = ([], []) := by
  cases depth <;> rfl

theorem length_flatMap_items {vs : List Value} {n : Nat} (h : ∀ w ∈ vs, (items w).length = n) :
    (vs.flatMap items).length = vs.length * n := by
  induction vs with
  | nil => simp
  | cons v vs ih =>
      rw [List.flatMap_cons, List.length_append, h v List.mem_cons_self,
        ih fun w hw => h w (List.mem_cons_of_mem _ hw), List.length_cons, Nat.succ_mul,
        Nat.add_comm]

theorem length_levels (depth : Nat) (vs : List Value) :
    (levels depth vs).2.length = vs.length * (levels depth vs).1.prod := by
  induction depth generalizing vs with
  | zero => simp [levels]
  | succ depth ih =>
      cases hn : commonLength? vs with
      | none => simp [levels_succ_none hn]
      | some n =>
          have hlength := length_flatMap_items fun w hw => (commonLength?_eq_some hn w hw).2
          rw [levels_succ_some hn, List.prod_cons, ih, hlength, Nat.mul_assoc]

theorem levels_of_nil {depth : Nat} {vs : List Value} (h : (levels depth vs).1 = []) :
    (levels depth vs).2 = vs := by
  cases depth with
  | zero => rfl
  | succ depth =>
      cases hn : commonLength? vs with
      | none => rw [levels_succ_none hn]
      | some n =>
          rw [levels_succ_some hn] at h
          cases h

/-- The first level of a shape, and the levels below. -/
theorem levels_of_cons {depth : Nat} {vs : List Value} {n : Nat} {ns : List Nat}
    (h : (levels depth vs).1 = n :: ns) : (∀ w ∈ vs, isList w = true ∧ (items w).length = n) ∧
      ∃ below, (levels below (vs.flatMap items)).1 = ns ∧
        (levels below (vs.flatMap items)).2 = (levels depth vs).2 := by
  cases depth with
  | zero => cases h
  | succ depth =>
      cases hn : commonLength? vs with
      | none =>
          rw [levels_succ_none hn] at h
          cases h
      | some m =>
          rw [levels_succ_some hn] at h
          obtain ⟨rfl, hns⟩ := List.cons.inj h
          exact ⟨commonLength?_eq_some hn, depth, hns, by rw [levels_succ_some hn]⟩

/-! ## Cells -/

theorem size_spread (v : Value) : (spread v).cells.size = (spread v).shape.prod := by
  have hlength := length_levels depthLimit [v]
  rw [List.length_singleton, Nat.one_mul] at hlength
  show (levels depthLimit [v]).2.toArray.size = _
  rw [List.size_toArray, hlength]
  rfl

theorem spread_leaf {v : Value} (h : isList v = false) : spread v = ⟨[], #[v]⟩ := by
  unfold spread
  have hlevel := commonLength?_leaf (List.mem_singleton_self v) h
  rw [show depthLimit = 63 + 1 from rfl, levels_succ_none hlevel]

theorem spread_of_regular {v : Value} {t : Tensor Value} (h : regular v = .ok t) :
    t = spread v ∧ ∀ w ∈ (spread v).cells, isList w = false := by
  unfold regular at h
  simp only [] at h
  split at h
  · cases h
  · rename_i hany
    cases h
    refine ⟨rfl, fun w hw => ?_⟩
    by_contra hlist
    exact hany (Array.any_eq_true'.2 ⟨w, hw, by simpa using hlist⟩)

theorem regular_of_leaves {v : Value} (h : ∀ w ∈ (spread v).cells, isList w = false) :
    regular v = .ok (spread v) := by
  have hany : ¬(spread v).cells.any isList = true := by
    intro hany
    obtain ⟨w, hw, hlist⟩ := Array.any_eq_true'.1 hany
    rw [h w hw] at hlist
    cases hlist
  exact if_neg hany

/-- A matrix has the items of its rows as cells, row by row. -/
theorem spread_matrix {v : Value} {r c : Nat} (h : (spread v).shape = [r, c]) :
    (items v).length = r ∧ (∀ row ∈ items v, (items row).length = c) ∧
      (spread v).cells.toList = (items v).flatMap items := by
  -- the first level holds the rows, the second one their items
  have hshape : (levels depthLimit [v]).1 = [r, c] := h
  obtain ⟨houter, d, hrows, hcells⟩ := levels_of_cons hshape
  rw [List.flatMap_singleton] at hrows hcells
  obtain ⟨hinner, d', hleaves, hcells'⟩ := levels_of_cons hrows
  refine ⟨(houter v (List.mem_singleton_self v)).2, fun row hrow => (hinner row hrow).2, ?_⟩
  show (levels depthLimit [v]).2.toArray.toList = _
  rw [← hcells, ← hcells', levels_of_nil hleaves]

end OptimalAssignment.Nesting
