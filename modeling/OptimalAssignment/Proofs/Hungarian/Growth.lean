import OptimalAssignment.Proofs.Hungarian.Optimality

/-!
# How far entries grow

In exact arithmetic an entry grows by no more than all the amounts together.  While a star is
missing some row and some column have never held one.  Their entry has lost every amount so far, and
it is not negative, so all the amounts together are no more than the largest entry was at first.
-/

namespace OptimalAssignment

variable {α : Type} {n : Nat}

theorem Grid.top_nonneg [Zero α] [LinearOrder α] {r c : Nat} {g : Grid α r c}
    (h : ∀ i j, 0 ≤ g.get i j) : 0 ≤ g.top := by
  rcases g.top_cases with hzero | ⟨i, j, hget⟩
  · exact ge_of_eq hzero
  · exact hget ▸ h i j

namespace Hungarian

/-- The working matrix between the two steps of an adjustment. -/
def State.raised [Add α] (s : State α n) (amount : α) : Grid α n n :=
  .ofFn fun i j => if s.ColCovered j then s.working.get i j + amount else s.working.get i j

theorem State.get_raised [Add α] (s : State α n) (a : α) (i j : Fin n) :
    (s.raised a).get i j =
      if s.ColCovered j then s.working.get i j + a else s.working.get i j :=
  Grid.get_ofFn _ _ _

theorem State.get_shift_raised [Add α] [Sub α] (s : State α n) (a : α) (i j : Fin n) :
    (s.shift a).get i j =
      if s.RowCovered i then (s.raised a).get i j else (s.raised a).get i j - a := by
  rw [get_shift, get_raised]
  split <;> split <;> rfl

section Exact

variable [AddCommGroup α]

/-- All that the adjustments of some turns went by. -/
def amounts (past : List (Taken α n)) : α :=
  ((adjustments past).map Prod.fst).sum

theorem amounts_cons (k : Taken α n) (past : List (Taken α n)) :
    amounts (k :: past) = (k.adjustment?.elim 0 Prod.fst) + amounts past := by
  unfold amounts adjustments
  rw [List.filterMap_cons]
  cases k.adjustment? with
  | none => rw [Option.elim_none, zero_add]
  | some a => rw [List.map_cons, List.sum_cons, Option.elim_some]

variable [LinearOrder α] [IsOrderedAddMonoid α]

/-- What the entries have to do with those at first, by what was taken.  A cell is free while its
row and its column have never held a star. -/
structure Growth (initial : Grid α n n) (taken : α) (p : Phase n) (s : State α n) : Prop where
  nonneg : 0 ≤ taken
  le : ∀ i j, s.working.get i j ≤ initial.get i j + taken
  free : ∀ i j, (p ≠ .start → (∀ l, ¬s.StarAt i l) ∧ ∀ k, ¬s.StarAt k j) →
    initial.get i j = taken + s.working.get i j

namespace Growth

variable {initial : Grid α n n} {taken a : α} {s : State α n}

theorem shifted (h : Growth initial taken .adjust s) (hs : s.Balanced none) (ha : 0 ≤ a) :
    Growth initial (a + taken) .search (s.shifted a).counted where
  nonneg := add_nonneg ha h.nonneg
  le i j := by
    have hle : (s.shift a).get i j ≤ s.working.get i j + a := by
      rw [State.get_shift]
      split <;> split
      · exact le_refl _
      · exact le_add_of_nonneg_right ha
      · exact sub_le_self _ ha
      · exact (sub_le_self _ ha).trans (le_add_of_nonneg_right ha)
    calc (s.shift a).get i j ≤ s.working.get i j + a := hle
      _ ≤ initial.get i j + taken + a := add_le_add_left (h.le i j) a
      _ = initial.get i j + (a + taken) := by abel
  free i j hfree := by
    obtain ⟨hi, hj⟩ := hfree (by simp)
    show _ = a + taken + (s.shift a).get i j
    rw [State.get_shift, if_neg (hs.not_rowCovered hi), if_neg (hs.not_colCovered hj),
      h.free i j fun _ => ⟨hi, hj⟩]
    abel

theorem exists_add_le (h : Growth initial taken .adjust s) (hs : s.Balanced none)
    (hn : s.starCount < n) (ha : s.leastOpen? = some a) : ∃ i j, taken + a ≤ initial.get i j := by
  -- the cell that is still free has lost all that was taken
  obtain ⟨i, j, hi, hj⟩ := hs.exists_free hn
  have hle : a ≤ s.working.get i j := State.leastOpen?_le ordered_linear (fun _ _ => trivial) ha
    (hs.not_rowCovered hi) (hs.not_colCovered hj)
  refine ⟨i, j, ?_⟩
  rw [h.free i j fun _ => ⟨hi, hj⟩]
  exact add_le_add_right hle taken

end Growth

variable {scores : Grid α n n} {direction : Direction} {t : α} {patience : Option Nat}
  {trace : Bool} {past : List (Taken α n)} {r : Run α n}

theorem Course.growth (h : Course patience trace (begin scores direction t) past r) :
    Growth (scores.normalize direction) (amounts past) r.phase r.state := by
  induction h with
  | here =>
      have hzero : amounts ([] : List (Taken α n)) = 0 := rfl
      refine ⟨ge_of_eq hzero, fun i j => ?_, fun i j _ => ?_⟩
      · rw [hzero, add_zero]
        exact le_refl _
      · rw [hzero, zero_add]
        rfl
  | @turn past r s h hs ih =>
      have hsound := h.sound (begin_sound scores direction t)
      have hadv := Run.advance_of_turn hs
      rw [amounts_cons, hadv.adjustment?_eq]
      by_cases hadj : r.phase = .adjust
      · rw [hadj] at hadv hsound ih
        obtain ⟨hsearch, a, ha, hstate⟩ := hadv.of_adjust
        obtain ⟨k, l, -, -, hget⟩ := State.leastOpen?_mem ha
        rw [if_pos hadj, ha, hsearch, hstate]
        exact ih.shifted hsound.1 (hget ▸ h.accounted_begin.nonneg k l)
      -- the entries stay, and a cell that is free now was so before
      · have hw := (hadv.frame.2.2 hadj).1
        rw [if_neg hadj, Option.elim_none, zero_add]
        refine ⟨ih.nonneg, fun i j => hw ▸ ih.le i j,
          fun i j hfree => hw ▸ ih.free i j fun hstart => ?_⟩
        obtain ⟨hi, hj⟩ := hfree hadv.ne_start
        exact ⟨fun l hl => (hadv.starred_row hsound hstart hl).elim hi,
          fun k hk => (hadv.starred_col hsound hstart hk).elim hj⟩

/-! ## Bounds by the largest entry -/

/-- What a run computes with, by the largest entry that it began with. -/
structure Bounded (top : α) (past : List (Taken α n)) (r : Run α n) : Prop where
  amounts_le : amounts past ≤ top
  nonneg : ∀ i j, 0 ≤ r.state.working.get i j
  entry_le : ∀ i j, r.state.working.get i j ≤ top + top
  amount : ∀ {a}, r.phase = .adjust → r.state.leastOpen? = some a → 0 ≤ a ∧ a ≤ top
  raised_le : ∀ {a}, r.phase = .adjust → r.state.leastOpen? = some a →
    ∀ i j, (r.state.raised a).get i j ≤ top + top

namespace Course

theorem amounts_add_le (h : Course patience trace (begin scores direction t) past r)
    (hadj : r.phase = .adjust) {a : α} (ha : r.state.leastOpen? = some a) :
    amounts past + a ≤ (scores.normalize direction).top := by
  have hgrowth := h.growth
  have hsound := h.sound (begin_sound scores direction t)
  rw [hadj] at hgrowth hsound
  obtain ⟨i, j, hle⟩ := hgrowth.exists_add_le hsound.1 hsound.2.1 ha
  exact hle.trans (Grid.le_top ordered_linear (fun _ _ => trivial) i j)

theorem amounts_le (h : Course patience trace (begin scores direction t) past r) :
    amounts past ≤ (scores.normalize direction).top := by
  induction h with
  | here => exact Grid.top_nonneg (Grid.reduce_nonneg _)
  | @turn past r s h hs ih =>
      have hadv := Run.advance_of_turn hs
      rw [amounts_cons, hadv.adjustment?_eq]
      by_cases hadj : r.phase = .adjust
      · have hadv' := hadv
        rw [hadj] at hadv'
        obtain ⟨-, a, ha, -⟩ := hadv'.of_adjust
        rw [if_pos hadj, ha]
        show a + amounts past ≤ _
        rw [add_comm]
        exact h.amounts_add_le hadj ha
      · rw [if_neg hadj, Option.elim_none, zero_add]
        exact ih

theorem bounded (h : Course patience trace (begin scores direction t) past r) :
    Bounded (scores.normalize direction).top past r := by
  have hgrowth := h.growth
  have hnonneg := h.accounted_begin.nonneg
  have htop : ∀ i j, (scores.normalize direction).get i j ≤ (scores.normalize direction).top :=
    Grid.le_top ordered_linear fun _ _ => trivial
  have hentry : ∀ i j, r.state.working.get i j ≤ (scores.normalize direction).top + amounts past :=
    fun i j => (hgrowth.le i j).trans (add_le_add_left (htop i j) _)
  -- one amount more is still within the largest entry, so no sum is beyond twice that
  refine ⟨h.amounts_le, hnonneg, fun i j => (hentry i j).trans (add_le_add_right h.amounts_le _),
    fun {a} hadj ha => ?_, fun {a} hadj ha i j => ?_⟩
  · obtain ⟨k, l, -, -, hget⟩ := State.leastOpen?_mem ha
    exact ⟨hget ▸ hnonneg k l,
      (le_add_of_nonneg_left hgrowth.nonneg).trans (h.amounts_add_le hadj ha)⟩
  · rw [State.get_raised]
    split
    · calc r.state.working.get i j + a
          ≤ (scores.normalize direction).top + amounts past + a := add_le_add_left (hentry i j) a
        _ = (scores.normalize direction).top + (amounts past + a) := add_assoc _ _ _
        _ ≤ (scores.normalize direction).top + (scores.normalize direction).top :=
          add_le_add_right (h.amounts_add_le hadj ha) _
    · exact (hentry i j).trans (add_le_add_right h.amounts_le _)

end Course

end Exact
end Hungarian
end OptimalAssignment
