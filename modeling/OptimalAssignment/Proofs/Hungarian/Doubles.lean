import OptimalAssignment.Proofs.Hungarian.Termination
import OptimalAssignment.Proofs.Scores.Proper

/-!
# Solves over doubles

No entry of a run over doubles ever becomes negative or NaN.  An entry may overflow to infinity where
its column is covered over and over, but a column without a star is never covered, so its entries
stay finite.  While a star is missing there is such a column, and so every amount is finite.
-/

namespace OptimalAssignment

open Binary

namespace Hungarian

/-! ## Runs -/

variable {n : Nat}

/-- The entries stay unsigned, and those that were never in a starred column stay finite. -/
structure Steady (p : Phase n) (s : State Float n) : Prop where
  unsigned : ∀ i j, 0 ≤ s.working.get i j
  finite : ∀ i j, (p ≠ .start → ∀ k, ¬s.StarAt k j) → (s.working.get i j).isFinite = true

theorem Steady.leastOpen?_finite {p : Phase n} {s : State Float n} (h : Steady p s)
    (hs : s.Balanced none) (hn : s.starCount < n) {a : Float} (ha : s.leastOpen? = some a) :
    0 ≤ a ∧ a.isFinite = true := by
  obtain ⟨k, l, -, -, hget⟩ := State.leastOpen?_mem ha
  have hzero : 0 ≤ a := hget ▸ h.unsigned k l
  -- in a row and a column without a star there is an open entry, and it bounds the amount
  obtain ⟨i, j, hrow, hcol⟩ := hs.exists_free hn
  have hle := State.leastOpen?_le ordered_unsigned h.unsigned ha (hs.not_rowCovered hrow)
    (hs.not_colCovered hcol)
  have hfin := h.finite i j fun _ => hcol
  rw [isFinite_iff (h.unsigned i j)] at hfin
  rw [isFinite_iff hzero]
  exact ⟨hzero, Nat.lt_of_le_of_lt ((le_iff_magnitude hzero (h.unsigned i j)).1 hle) hfin⟩

theorem Steady.shifted {s : State Float n} (h : Steady .adjust s) (hs : s.Balanced none)
    (hn : s.starCount < n) {a : Float} (ha : s.leastOpen? = some a) :
    Steady .search (s.shifted a).counted := by
  obtain ⟨hzero, hfin⟩ := h.leastOpen?_finite hs hn ha
  have hsub : ∀ {x : Float}, 0 ≤ x → a ≤ x →
      0 ≤ x - a ∧ (x.isFinite = true → (x - a).isFinite = true) := fun hx hax =>
    ⟨(sub_le hx hzero hax hfin).1, fun hf => (proper_sub hx hzero hax hf).2⟩
  constructor
  · intro i j
    have hx := h.unsigned i j
    show 0 ≤ (s.shift a).get i j
    rw [State.get_shift]
    split
    · split
      · exact (le_add hx hzero).1
      · exact hx
    · rename_i hi
      split
      · exact (hsub (le_add hx hzero).1 (le_add hx hzero).2).1
      · rename_i hj
        exact (hsub hx (State.leastOpen?_le ordered_unsigned h.unsigned ha hi hj)).1
  -- without a star the column is not covered, so its entries do not grow
  · intro i j hfree
    have hfree : ∀ k, ¬s.StarAt k j := hfree (by simp)
    have hj : ¬s.ColCovered j := hs.not_colCovered hfree
    have hx := h.finite i j fun _ => hfree
    show ((s.shift a).get i j).isFinite = true
    rw [State.get_shift, if_neg hj, if_neg hj]
    split
    · exact hx
    · rename_i hi
      have hle := State.leastOpen?_le ordered_unsigned h.unsigned ha hi hj
      exact (hsub (h.unsigned i j) hle).2 hx

theorem Advance.steady {p q : Phase n} {s t : State Float n} (h : Advance p s q t) (hs : Sound p s)
    (hp : Steady p s) : Steady q t := by
  by_cases hadj : p = .adjust
  · subst hadj
    obtain ⟨rfl, a, ha, rfl⟩ := h.of_adjust
    exact hp.shifted hs.1 hs.2.1 ha
  · have hw := (h.frame.2.2 hadj).1
    refine ⟨fun i j => hw ▸ hp.unsigned i j, fun i j hfree => hw ▸ hp.finite i j ?_⟩
    intro hstart k hk
    obtain ⟨l, hl⟩ := h.starred_col hs hstart hk
    exact hfree h.ne_start l hl

variable {patience : Option Nat} {trace : Bool} {first r : Run Float n}
  {past : List (Taken Float n)}

theorem Course.steady (h : Course patience trace first past r)
    (hsound : Sound first.phase first.state) (h₀ : Steady first.phase first.state) :
    Steady r.phase r.state := by
  induction h with
  | here => exact h₀
  | turn h hs ih => exact (Run.advance_of_turn hs).steady (h.sound hsound) ih

/-! ## Solves -/

variable {scores : Grid Float n n}

theorem begin_steady (h : scores.Proper) (direction : Direction) (t : Float) :
    Steady (begin scores direction t).phase (begin scores direction t).state where
  unsigned i j := (h.normalize direction i j).1
  finite i j _ := (h.normalize direction i j).2

theorem progresses_of_proper (h : scores.Proper) (direction : Direction) {t : Float} (ht : 0 ≤ t)
    (patience : Option Nat) (trace : Bool) :
    Progresses patience trace (begin scores direction t) := by
  intro past r a hr hadj ha
  have hsound := hr.sound (begin_sound scores direction t)
  have hsteady := hr.steady (begin_sound scores direction t) (begin_steady h direction t)
  rw [hadj] at hsound hsteady
  rw [Binary.sub_self (hsteady.leastOpen?_finite hsound.1 hsound.2.1 ha).2, hr.tolerance]
  exact ht

theorem starCount_begin_pos_of_proper (h : scores.Proper) (hn : 0 < n) (direction : Direction)
    {t : Float} (ht : 0 ≤ t) : 1 ≤ (begin scores direction t).state.start.state.starCount := by
  obtain ⟨i, hi⟩ := (scores.orient direction scores.top).exists_reduce_eq_sub_self ⟨0, hn⟩ hn
  rw [Binary.sub_self ((h.orient direction).lowerRows i ⟨0, hn⟩).2] at hi
  exact starCount_begin_pos (show Grid.get _ i ⟨0, hn⟩ ≤ t from hi ▸ ht)

end Hungarian
end OptimalAssignment
