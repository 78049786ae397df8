import Mathlib.Algebra.Order.BigOperators.Group.Finset
import OptimalAssignment.Proofs.Hungarian.Termination

/-!
# The certificate of a run

In exact arithmetic a run keeps account of what it has taken from every permutation alike: the least
entries of the lines at first, and with every adjustment its amount for each star that is missing.
As no entry becomes negative, no permutation costs less than that.
-/

namespace OptimalAssignment.Hungarian

variable {α : Type} {n : Nat}

/-! ## Starred and primed cells are zeros -/

section Zeros

variable [LE α]

namespace State

def MarkedZero (s : State α n) : Prop :=
  ∀ i j, s.StarAt i j ∨ s.PrimeAt i j → s.working.get i j ≤ s.tolerance

theorem MarkedZero.mark {s : State α n} (h : s.MarkedZero) {i j : Fin n} (m : Mark)
    (hz : s.working.get i j ≤ s.tolerance) : (s.mark i j m).MarkedZero := by
  intro a b hab
  show s.working.get a b ≤ s.tolerance
  unfold StarAt PrimeAt at hab
  rw [marks_mark] at hab
  split at hab
  · rename_i hcell
    obtain ⟨rfl, rfl⟩ := hcell
    exact hz
  · exact h a b hab

theorem MarkedZero.primed {s : State α n} (h : s.MarkedZero) {i j : Fin n}
    (hz : s.working.get i j ≤ s.tolerance) : (s.primed i j).MarkedZero :=
  h.mark .prime hz

theorem MarkedZero.flip {s : State α n} (h : s.MarkedZero) (x : Cell n n) :
    (s.flip x).state.MarkedZero := by
  rintro i j (hs | hp)
  · exact h i j (((starAt_flip s x i j).1 hs).imp And.left And.left)
  · exact absurd hp (not_primeAt_exchange s (s.chain x) i j)

variable [DecidableLE α]

theorem MarkedZero.starRow {s : State α n} (h : s.MarkedZero) (i : Fin n) :
    (s.starRow i).MarkedZero := by
  obtain ⟨e, -⟩ | ⟨j, e, -, -, hz⟩ := s.starRow_cases i
  · rwa [e]
  · rw [e]
    exact h.mark .star (isZero_iff.1 hz)

theorem MarkedZero.start {s : State α n} (h : s.MarkedZero) : s.start.state.MarkedZero := by
  have hfold : ∀ (rows : List (Fin n)) {s : State α n}, s.MarkedZero →
      (rows.foldl State.starRow s).MarkedZero := by
    intro rows
    induction rows with
    | nil => exact fun h => h
    | cons r rows ih => exact fun h => ih (h.starRow r)
  exact hfold (List.finRange n) h

end State

variable [DecidableLE α] [Add α] [Sub α]

theorem Advance.markedZero {p q : Phase n} {s t : State α n} (h : Advance p s q t)
    (hp : p ≠ .adjust) (hz : s.MarkedZero) : t.MarkedZero := by
  cases h with
  | start => exact hz.start
  | found h => exact hz.primed (State.openZero?_some h).1
  | covered h => exact hz.primed (State.openZero?_some h).1
  | flip => exact hz.flip _
  | adjust => exact absurd rfl hp
  | _ => exact hz

omit [Add α] in
theorem begin_markedZero [Zero α] (scores : Grid α n n) (direction : Direction) (t : α) :
    (begin scores direction t).state.MarkedZero := by
  intro i j hm
  have hblank : (begin scores direction t).state.marks.get i j = .blank := Grid.get_replicate _ _ _
  unfold State.StarAt State.PrimeAt at hm
  rw [hblank] at hm
  rcases hm with hm | hm <;> cases hm

end Zeros

theorem State.lt_leastOpen [LinearOrder α] {s : State α n} (h : s.openZero? = none) {a : α}
    (ha : s.leastOpen? = some a) : s.tolerance < a := by
  obtain ⟨i, j, hi, hj, rfl⟩ := leastOpen?_mem ha
  exact not_le.1 (openZero?_eq_none.1 h i j hi hj)

/-! ## Adjustments in exact arithmetic -/

section Exact

variable [AddCommGroup α]

namespace State

theorem get_shift_eq (s : State α n) (a : α) (i j : Fin n) :
    (s.shift a).get i j =
      s.working.get i j + (if s.ColCovered j then a else 0) - if s.RowCovered i then 0 else a := by
  rw [get_shift]
  split <;> split <;> abel

/-- Exactly one line of a star is covered, and the same lines of a prime. -/
theorem Balanced.shift_marked {s : State α n} (h : s.Balanced none) (a : α) {i j : Fin n}
    (hm : s.StarAt i j ∨ s.PrimeAt i j) : (s.shift a).get i j = s.working.get i j := by
  have hcover : s.RowCovered i ↔ ¬s.ColCovered j := by
    rcases hm with hs | hp
    · exact h.star_cover hs
    · have hr : s.RowCovered i := (h.prime_row hp).resolve_right (by simp)
      exact ⟨fun _ => h.prime_col hp, fun _ => hr⟩
  rw [get_shift_eq]
  by_cases hr : s.RowCovered i
  · rw [if_pos hr, if_neg (hcover.1 hr)]
    abel
  · have hc : s.ColCovered j := not_not.1 fun hc => hr (hcover.2 hc)
    rw [if_neg hr, if_pos hc]
    abel

/-- Every permutation meets every line once, and there are as many covered lines as stars. -/
theorem Balanced.along_shift {s : State α n} {c : Option (Cell n n)} (h : s.Balanced c) (a : α)
    (σ : Equiv.Perm (Fin n)) :
    s.working.along σ = (n - s.starCount) • a + (s.shift a).along σ := by
  -- every covered column adds the amount, and every row that is not covered takes it
  have hcols : ∑ i, (if s.ColCovered (σ i) then a else 0) = s.coveredCols.card • a := by
    rw [Equiv.sum_comp σ fun j => if s.ColCovered j then a else 0, ← Finset.sum_filter,
      Finset.sum_const]
    rfl
  have hrows : (∑ i, if s.RowCovered i then 0 else a) + s.coveredRows.card • a = n • a := by
    have hcovered : s.coveredRows.card • a = ∑ i, if s.RowCovered i then a else 0 := by
      rw [← Finset.sum_filter, Finset.sum_const]
      rfl
    have hone : ∀ i, ((if s.RowCovered i then 0 else a) + if s.RowCovered i then a else 0) = a := by
      intro i
      split <;> simp
    rw [hcovered, ← Finset.sum_add_distrib]
    simp [hone]
  have hcount : s.starCount • a = s.coveredRows.card • a + s.coveredCols.card • a := by
    rw [← h.coveredRows_add_coveredCols, add_nsmul]
  unfold Grid.along
  simp only [get_shift_eq, Finset.sum_sub_distrib, Finset.sum_add_distrib, hcols]
  rw [sub_nsmul _ h.starCount_le, hcount, ← hrows]
  abel

end State

/-- The amount and the number of stars of an adjustment. -/
def Taken.adjustment? (k : Taken α n) : Option (α × Nat) :=
  if k.before.phase = .adjust then
    k.after.state.lastAmount.map fun amount => (amount, k.before.state.starCount)
  else none

/-- The adjustments of some turns, the newest first. -/
def adjustments (past : List (Taken α n)) : List (α × Nat) :=
  past.filterMap Taken.adjustment?

variable [LinearOrder α]

/-- What was taken from every permutation, by the reduction and by the adjustments. -/
def certificate (costs : Grid α n n) (past : List (Taken α n)) : α :=
  costs.reduced + ((adjustments past).map fun (amount, stars) => (n - stars) • amount).sum

theorem certificate_cons (costs : Grid α n n) (k : Taken α n) (past : List (Taken α n)) :
    certificate costs (k :: past) =
      (k.adjustment?.elim 0 fun (amount, stars) => (n - stars) • amount) +
        certificate costs past := by
  unfold certificate adjustments
  rw [List.filterMap_cons]
  cases k.adjustment? with
  | none => rw [Option.elim_none, zero_add]
  | some a =>
      simp only [List.map_cons, List.sum_cons, Option.elim_some]
      abel

theorem Advance.adjustment?_eq {r s : Run α n} (h : Advance r.phase r.state s.phase s.state) :
    (Taken.mk r s).adjustment? =
      if r.phase = .adjust then r.state.leastOpen?.map fun a => (a, r.state.starCount)
      else none := by
  unfold Taken.adjustment?
  simp only []
  split
  · rename_i hadj
    rw [hadj] at h
    obtain ⟨-, a, ha, hs⟩ := h.of_adjust
    rw [hs, ha]
    rfl
  · rfl

/-! ## Whole courses -/

namespace Course

variable {patience : Option Nat} {trace : Bool} {first r : Run α n} {past : List (Taken α n)}

/-- Every adjustment is listed. -/
theorem length_adjustments (h : Course patience trace first past r)
    (h₀ : first.state.adjustments = 0) : (adjustments past).length = r.state.adjustments := by
  induction h with
  | here => exact h₀.symm
  | @turn past r s h hs ih =>
      have hadv := Run.advance_of_turn hs
      have hlist := hadv.adjustment?_eq
      unfold adjustments at ih ⊢
      by_cases hadj : r.phase = .adjust
      · rw [hadj] at hadv
        obtain ⟨-, a, ha, hstate⟩ := hadv.of_adjust
        rw [if_pos hadj, ha, Option.map_some] at hlist
        rw [List.filterMap_cons_some hlist, List.length_cons, ih, hstate]
        rfl
      · rw [if_neg hadj] at hlist
        rw [List.filterMap_cons_none hlist, ih, (hadv.frame.2.2 hadj).2]

theorem tolerance_lt_amount (h : Course patience trace first past r)
    (hsound : Sound first.phase first.state) {a : α} {stars : Nat}
    (ha : (a, stars) ∈ adjustments past) : first.state.tolerance < a := by
  obtain ⟨k, hk, hadj⟩ := List.mem_filterMap.1 ha
  obtain ⟨newer, older, rfl⟩ := List.append_of_mem hk
  obtain ⟨hbefore, hturn⟩ := h.before
  have hadv := Run.advance_of_turn hturn
  rw [show k = ⟨k.before, k.after⟩ from rfl, hadv.adjustment?_eq] at hadj
  split at hadj
  · rename_i hphase
    have hr := hbefore.sound hsound
    rw [hphase] at hr
    obtain ⟨b, hb, hpair⟩ := Option.map_eq_some_iff.1 hadj
    cases hpair
    rw [← hbefore.tolerance]
    exact State.lt_leastOpen hr.2.2 hb
  · cases hadj

/-- An adjustment leaves the entries of starred and primed cells alone. -/
theorem adjust_marked (h : Course patience trace first past r)
    (hsound : Sound first.phase first.state) {k : Taken α n} (hk : k ∈ past)
    (hadj : k.before.phase = .adjust) {i j : Fin n}
    (hm : k.before.state.StarAt i j ∨ k.before.state.PrimeAt i j) :
    k.after.state.working.get i j = k.before.state.working.get i j := by
  obtain ⟨newer, older, rfl⟩ := List.append_of_mem hk
  obtain ⟨hbefore, hturn⟩ := h.before
  have hadv := Run.advance_of_turn hturn
  have hr := hbefore.sound hsound
  rw [hadj] at hadv hr
  obtain ⟨-, a, -, hstate⟩ := hadv.of_adjust
  rw [hstate]
  exact hr.1.shift_marked a hm

end Course

/-! ## The account -/

variable [IsOrderedAddMonoid α]

/-- No entry is negative, marked cells are zeros, and the account of every permutation adds up. -/
structure Accounted (costs : Grid α n n) (certified : α) (s : State α n) : Prop where
  nonneg : ∀ i j, 0 ≤ s.working.get i j
  zero : s.MarkedZero
  along : ∀ σ, costs.along σ = certified + s.working.along σ

theorem Accounted.shifted {costs : Grid α n n} {certified : α} {s : State α n}
    (h : Accounted costs certified s) (hs : s.Balanced none) {a : α} (ha : s.leastOpen? = some a) :
    Accounted costs ((n - s.starCount) • a + certified) (s.shifted a).counted where
  nonneg i j := by
    -- an entry is only lowered where it is open, and there the amount is the least
    show 0 ≤ (s.shift a).get i j
    have hx := h.nonneg i j
    obtain ⟨k, l, -, -, hkl⟩ := State.leastOpen?_mem ha
    have hpos : 0 ≤ a := hkl ▸ h.nonneg k l
    rw [State.get_shift]
    split
    · split
      · exact add_nonneg hx hpos
      · exact hx
    · rename_i hi
      split
      · rw [add_sub_cancel_right]
        exact hx
      · rename_i hj
        rw [sub_nonneg]
        exact State.leastOpen?_le ordered_linear (fun _ _ => trivial) ha hi hj
  zero i j hm := by
    show (s.shift a).get i j ≤ s.tolerance
    rw [hs.shift_marked a hm]
    exact h.zero i j hm
  along σ := by
    show costs.along σ = _ + (s.shift a).along σ
    rw [h.along σ, hs.along_shift a σ]
    abel

namespace Course

variable {patience : Option Nat} {trace : Bool} {first r : Run α n} {past : List (Taken α n)}

theorem accounted {costs : Grid α n n} (h : Course patience trace first past r)
    (hsound : Sound first.phase first.state) (h₀ : Accounted costs costs.reduced first.state) :
    Accounted costs (certificate costs past) r.state := by
  induction h with
  | here =>
      have hzero : certificate costs [] = costs.reduced := add_zero _
      rw [hzero]
      exact h₀
  | @turn past r s h hs ih =>
      have hadv := Run.advance_of_turn hs
      rw [certificate_cons, hadv.adjustment?_eq]
      by_cases hadj : r.phase = .adjust
      · have hr := h.sound hsound
        rw [hadj] at hadv hr
        obtain ⟨-, a, ha, hstate⟩ := hadv.of_adjust
        rw [if_pos hadj, ha, hstate]
        exact ih.shifted hr.1 ha
      · obtain ⟨-, htol, hframe⟩ := hadv.frame
        have hw := (hframe hadj).1
        rw [if_neg hadj, Option.elim_none, zero_add]
        exact
          { nonneg := fun i j => hw ▸ ih.nonneg i j
            zero := hadv.markedZero hadj ih.zero
            along := fun σ => hw ▸ ih.along σ }

theorem certificate_le {costs : Grid α n n} {newer older : List (Taken α n)}
    (h : Course patience trace first (newer ++ older) r) (hsound : Sound first.phase first.state)
    (ht : 0 ≤ first.state.tolerance) :
    certificate costs older ≤ certificate costs (newer ++ older) := by
  have hsplit : certificate costs (newer ++ older) =
      ((adjustments newer).map fun (amount, stars) => (n - stars) • amount).sum +
        certificate costs older := by
    unfold certificate adjustments
    rw [List.filterMap_append, List.map_append, List.sum_append]
    abel
  rw [hsplit]
  apply le_add_of_nonneg_left
  apply List.sum_nonneg
  intro x hx
  obtain ⟨⟨a, stars⟩, ha, rfl⟩ := List.mem_map.1 hx
  have hmem : (a, stars) ∈ adjustments (newer ++ older) := by
    unfold adjustments
    rw [List.filterMap_append]
    exact List.mem_append_left _ ha
  exact nsmul_nonneg (le_trans ht (le_of_lt (h.tolerance_lt_amount hsound hmem))) _

end Course
end Exact
end OptimalAssignment.Hungarian
