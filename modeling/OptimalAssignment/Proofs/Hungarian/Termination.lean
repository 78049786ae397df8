import OptimalAssignment.Proofs.Hungarian.Turns
import OptimalAssignment.Proofs.Matching

/-!
# Every run ends

A run that is not asked to stop comes to its end within the turns that a solve grants it, and then
the stars are a permutation.
-/

namespace OptimalAssignment.Hungarian

variable {α : Type} {n : Nat}

/-! ## Full matchings -/

theorem State.Settled.exists_perm {s : State α n} (h : s.Settled) (hn : s.starCount = n) :
    ∃ σ : Equiv.Perm (Fin n), ∀ i j, s.StarAt i j ↔ σ i = j := by
  have hcol : ∀ j, ∃ i, s.StarAt i j := fun j => (h.col_iff j).1 (h.starCount_eq_iff.1 hn j)
  choose f hf using hcol
  -- the row of the star of each column
  have hinj : Function.Injective f := by
    intro j k hjk
    have hk : s.StarAt (f j) k := hjk ▸ hf k
    exact h.star_row (hf j) hk
  have hbij : Function.Bijective f := Finite.injective_iff_bijective.1 hinj
  refine ⟨(Equiv.ofBijective f hbij).symm, fun i j => ?_⟩
  rw [Equiv.symm_apply_eq]
  show s.StarAt i j ↔ i = f j
  constructor
  · intro hs
    exact h.star_col hs (hf j)
  · rintro rfl
    exact hf j

theorem State.isMatrixOf_matching [Zero α] [Add α] {s : State α n} {σ : Equiv.Perm (Fin n)}
    (h : ∀ i j, s.StarAt i j ↔ σ i = j) (scores : Grid α n n) (direction : Direction) :
    Matching.IsMatrixOf (s.matching scores direction).matrix σ := by
  intro i j
  have hget : (s.matching scores direction).matrix.get i j = if s.StarAt i j then 1 else 0 :=
    Grid.get_map _ _ _ _
  rw [hget]
  simp only [h]

/-! ## The end of a run -/

section Runs

variable [Add α] [Sub α] [LE α] [DecidableLE α]

/-- How the counters of a finished run hang together, and how the size bounds them. -/
structure WithinBounds (first last : Run α n) (past : List (Taken α n)) : Prop where
  initial_pos : 1 ≤ first.state.start.state.starCount
  augmentations : last.state.augmentations + first.state.start.state.starCount = n
  adjustments_le : last.state.adjustments ≤ repeats past + last.state.augmentations
  adjustments_le_size : last.state.adjustments ≤ (n - 1) * (n + 2) / 2
  repeats_le_size : repeats past ≤ n * (n - 1) / 2
  transitions : last.state.transitions =
    2 + 3 * last.state.augmentations + 2 * last.state.adjustments + repeats past
  transitions_le_size : last.state.transitions ≤ 2 + (n - 1) * (3 * n + 10) / 2
  finds_between : ∀ {newer between older : List (Taken α n)} {k m : Taken α n},
    past = newer ++ m :: (between ++ k :: older) → k.before.phase = .adjust →
    m.before.phase = .adjust → ∃ f ∈ between, f.finds

variable {trace : Bool} {first : Run α n}

theorem Course.withinBounds {patience : Option Nat} {past : List (Taken α n)} {r : Run α n}
    (h : Course patience trace first past r) (hfresh : first.Fresh)
    (hsound : Sound first.phase first.state) (hprog : Progresses patience trace first)
    (hinit : 1 ≤ first.state.start.state.starCount) (hdone : r.phase = .done) :
    WithinBounds first r past := by
  have hr := h.sound hsound
  rcases h.tally hfresh hsound hprog with ⟨-, rfl⟩ | ht
  · rw [hfresh.phase] at hdone
    cases hdone
  · rw [hdone] at hr ht
    have hstars := ht.stars
    have hadj : r.state.adjustments ≤ repeats past + r.state.augmentations := ht.adjustments_le
    have hrep := ht.repeated_le_size hr
    rw [hr.2] at hstars
    have hsize : (n - 1) * (n + 2) = n * (n - 1) + 2 * (n - 1) := by ring
    exact
      { initial_pos := hinit
        augmentations := hstars
        adjustments_le := hadj
        adjustments_le_size := by omega
        repeats_le_size := by omega
        transitions := ht.transitions
        transitions_le_size := ht.transitions_le hr hinit
        finds_between := fun e hk hm => (e ▸ h).finds_between_adjusts hprog hk hm }

theorem Course.length_lt_turnLimit {patience : Option Nat} {past : List (Taken α n)} {r : Run α n}
    (h : Course patience trace first past r) (hfresh : first.Fresh)
    (hsound : Sound first.phase first.state) (hprog : Progresses patience trace first)
    (hinit : 1 ≤ first.state.start.state.starCount) : past.length < turnLimit n patience := by
  unfold turnLimit
  rcases h.tally hfresh hsound hprog with ⟨rfl, -⟩ | ht
  · rw [List.length_nil]
    omega
  · have hle := ht.transitions_le (h.sound hsound) hinit
    rw [h.length_eq_transitions hfresh]
    omega

/-- A run that makes progress is finished or stopped, and it is never cut off. -/
theorem Run.play_ends_sound (patience : Option Nat) (hfresh : first.Fresh)
    (hsound : Sound first.phase first.state) (hprog : Progresses patience trace first)
    (hinit : 1 ≤ first.state.start.state.starCount) :
    ∃ past r, Course patience trace first past r ∧
      (r.phase = .done ∧ first.play patience trace (turnLimit n patience) = (.finished, r) ∨
        patience = some r.polls ∧
          (first.play patience trace (turnLimit n patience)).1 = .cancelled) := by
  obtain ⟨past, r, h, hends⟩ := Course.play_ends fun h =>
    h.length_lt_turnLimit hfresh hsound hprog hinit
  refine ⟨past, r, h, ?_⟩
  rcases Run.turn_ends_sound (h.sound hsound) hends with ⟨hhow, hdone, hlast⟩ | ⟨hhow, hpat⟩
  · exact .inl ⟨hdone, Prod.ext hhow hlast⟩
  · exact .inr ⟨hpat, hhow⟩

end Runs

/-! ## Solves -/

section Solves

variable [Zero α] [Sub α] [LE α] [DecidableLE α]

theorem begin_fresh (scores : Grid α n n) (direction : Direction) (t : α) :
    (begin scores direction t).Fresh :=
  ⟨rfl, rfl, rfl, rfl⟩

theorem begin_sound (scores : Grid α n n) (direction : Direction) (t : α) :
    Sound (begin scores direction t).phase (begin scores direction t).state :=
  State.seeded_fresh _ _

theorem starCount_begin_pos {scores : Grid α n n} {direction : Direction} {t : α} {i j : Fin n}
    (h : (scores.normalize direction).get i j ≤ t) :
    1 ≤ (begin scores direction t).state.start.state.starCount :=
  State.starCount_start_pos (begin_sound scores direction t) (State.isZero_iff.2 h)

theorem starCount_begin_pos_of_sub_self (hsub : ∀ x : α, x - x = 0) (hn : 0 < n)
    (scores : Grid α n n) (direction : Direction) {t : α} (ht : 0 ≤ t) :
    1 ≤ (begin scores direction t).state.start.state.starCount := by
  obtain ⟨i, hi⟩ := (scores.orient direction scores.top).exists_reduce_eq_sub_self ⟨0, hn⟩ hn
  rw [hsub] at hi
  exact starCount_begin_pos (show Grid.get _ i ⟨0, hn⟩ ≤ t from hi ▸ ht)

variable [Add α]

/-- A solve that makes progress is finished or stopped. -/
theorem solve_ends {scores : Grid α n n} {direction : Direction} {t : α} {patience : Option Nat}
    {trace : Bool} (hprog : Progresses patience trace (begin scores direction t))
    (hinit : 1 ≤ (begin scores direction t).state.start.state.starCount) :
    ∃ past last, Course patience trace (begin scores direction t) past last ∧
      (last.phase = .done ∧ (solve scores direction t patience trace).ending = .finished ∧
          (solve scores direction t patience trace).run.state = last.state ∧
          (solve scores direction t patience trace).matching =
            last.state.matching scores direction ∨
        patience = some last.polls ∧
          (solve scores direction t patience trace).ending = .cancelled) := by
  obtain ⟨past, last, h, hend⟩ := Run.play_ends_sound patience (begin_fresh scores direction t)
    (begin_sound scores direction t) hprog hinit
  refine ⟨past, last, h, ?_⟩
  rcases hend with ⟨hdone, hplay⟩ | ⟨hpat, hcancelled⟩
  · left
    unfold solve
    rw [hplay]
    exact ⟨hdone, rfl, rfl, rfl⟩
  · exact .inr ⟨hpat, hcancelled⟩

/-- A solve without anyone to stop it ends with a permutation. -/
structure EndsWell (scores : Grid α n n) (direction : Direction) (t : α) (trace : Bool) : Prop where
  finished : (solve scores direction t none trace).ending = .finished
  course : ∃ past last, Course none trace (begin scores direction t) past last ∧
    last.phase = .done ∧ (solve scores direction t none trace).run.state = last.state ∧
    WithinBounds (begin scores direction t) last past
  permutation : ∃ σ, Matching.IsMatrixOf (solve scores direction t none trace).matching.matrix σ

theorem endsWell_of_progress {scores : Grid α n n} {direction : Direction} {t : α} {trace : Bool}
    (hprog : Progresses none trace (begin scores direction t))
    (hinit : 1 ≤ (begin scores direction t).state.start.state.starCount) :
    EndsWell scores direction t trace := by
  have hfresh := begin_fresh scores direction t
  have hsound := begin_sound scores direction t
  obtain ⟨past, last, h, hend⟩ := solve_ends hprog hinit
  rcases hend with ⟨hdone, hending, hstate, hmatching⟩ | ⟨hpat, -⟩
  · have hlast := h.sound hsound
    rw [hdone] at hlast
    obtain ⟨σ, hσ⟩ := hlast.1.exists_perm hlast.2
    refine ⟨hending, ⟨past, last, h, hdone, hstate,
      h.withinBounds hfresh hsound hprog hinit hdone⟩, σ, ?_⟩
    rw [hmatching]
    exact State.isMatrixOf_matching hσ scores direction
  · cases hpat

/-- Taking an entry from itself must leave nothing, also where the arithmetic rounds. -/
theorem progresses_of_sub_self (hsub : ∀ x : α, x - x = 0) {scores : Grid α n n}
    {direction : Direction} {t : α} (ht : 0 ≤ t) (patience : Option Nat) (trace : Bool) :
    Progresses patience trace (begin scores direction t) := by
  intro past r a h _ _
  rw [hsub, h.tolerance]
  exact ht

end Solves
end OptimalAssignment.Hungarian
