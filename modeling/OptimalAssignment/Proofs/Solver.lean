import OptimalAssignment.Proofs.Hungarian.Doubles
import OptimalAssignment.Proofs.Hungarian.Independence
import OptimalAssignment.Proofs.Hungarian.Marked
import OptimalAssignment.Proofs.Hungarian.Polls
import OptimalAssignment.Solver

/-!
# What a solver answers

On scores that pass validation a solver with a tolerance that is not negative finds a permutation,
unless it is asked to stop.  The bounds on its turns, the marks of its states, the times at which it
is asked and the need for its adjustments do not depend on how its arithmetic rounds.
-/

namespace OptimalAssignment

open Hungarian

namespace Solver

/-- What an attempt on valid scores answers depends on how the solve ends. -/
theorem attempt_result {solver : Solver} {check : Option CancelCheck} {input : ScoreInput}
    {scores : SquareGrid Float} (h : (Scores.validate input).result = .ok scores) :
    (solver.attempt check input).answer.result =
      result (solve scores.grid solver.direction solver.tolerance
        (check.bind CancelCheck.patience) solver.trace) := by
  unfold attempt
  simp only []
  rw [h]

/-- What an attempt on valid scores leaves behind and shows is what its solve does. -/
theorem attempt_state (solver : Solver) (check : Option CancelCheck) {input : ScoreInput}
    {scores : SquareGrid Float} (h : (Scores.validate input).result = .ok scores) :
    (solver.attempt check input).solver.last =
      some ⟨scores.size, (solve scores.grid solver.direction solver.tolerance
        (check.bind CancelCheck.patience) solver.trace).run.state⟩ ∧
    (solver.attempt check input).snapshots =
      (solve scores.grid solver.direction solver.tolerance (check.bind CancelCheck.patience)
        solver.trace).snapshots.map fun s => ⟨scores.size, s⟩ := by
  unfold attempt
  simp only []
  rw [h]
  exact ⟨rfl, rfl⟩

/-- Two checks between which a solve makes no difference make none for the attempt. -/
theorem attempt_congr {solver : Solver} {check check' : Option CancelCheck} {input : ScoreInput}
    {scores : SquareGrid Float} (h : (Scores.validate input).result = .ok scores)
    (hsolve : solve scores.grid solver.direction solver.tolerance
        (check.bind CancelCheck.patience) solver.trace =
      solve scores.grid solver.direction solver.tolerance
        (check'.bind CancelCheck.patience) solver.trace) :
    solver.attempt check input = solver.attempt check' input := by
  unfold attempt
  simp only []
  rw [h]
  simp only [hsolve]

theorem run_of_endsWell (solver : Solver) {input : ScoreInput} {scores : SquareGrid Float}
    (h : (Scores.validate input).result = .ok scores)
    (hends : EndsWell scores.grid solver.direction solver.tolerance solver.trace) :
    (solver.run input).result = .ok ⟨scores.size,
      (solve scores.grid solver.direction solver.tolerance none solver.trace).matching⟩ := by
  unfold Solver.run
  rw [attempt_result h]
  show result (solve scores.grid solver.direction solver.tolerance none solver.trace) = _
  unfold result
  rw [hends.finished]

end Solver

/-! ## Termination -/

theorem every_solve_ends :
    (∀ {α : Type} [Zero α] [Add α] [Sub α] [LE α] [DecidableLE α] {n : Nat},
      (∀ x : α, x - x = 0) → 0 < n → ∀ (scores : Grid α n n) (direction : Direction) {t : α}
      (trace : Bool), 0 ≤ t → EndsWell scores direction t trace) ∧
    ∀ (solver : Solver) {input : ScoreInput} {scores : SquareGrid Float},
      (Scores.validate input).result = .ok scores → 0 ≤ solver.tolerance →
      EndsWell scores.grid solver.direction solver.tolerance solver.trace ∧
      (solver.run input).result = .ok ⟨scores.size,
        (solve scores.grid solver.direction solver.tolerance none solver.trace).matching⟩ := by
  constructor
  · intro α _ _ _ _ _ n hsub hn scores direction t trace ht
    exact endsWell_of_progress (progresses_of_sub_self hsub ht none trace)
      (starCount_begin_pos_of_sub_self hsub hn scores direction ht)
  · intro solver input scores hvalid ht
    have hproper := Scores.validate_ok hvalid
    have hends : EndsWell scores.grid solver.direction solver.tolerance solver.trace :=
      endsWell_of_progress (progresses_of_proper hproper solver.direction ht none solver.trace)
        (starCount_begin_pos_of_proper hproper scores.size_pos solver.direction ht)
    refine ⟨hends, ?_⟩
    unfold Solver.run
    rw [Solver.attempt_result hvalid]
    show Solver.result (solve scores.grid solver.direction solver.tolerance none solver.trace) = _
    unfold Solver.result
    rw [hends.finished]

/-- Two rows of scores. -/
def sampleScores : ScoreInput :=
  .nested (.list [.list [.real 0.5, .real 0.25], .list [.real 1.0, .real 2.0]])

theorem exists_valid {input : ScoreInput}
    (hvalid : (Scores.validate input).result.toOption.isSome = true) :
    ∃ scores, (Scores.validate input).result = .ok scores := by
  cases h : (Scores.validate input).result with
  | ok scores => exact ⟨scores, rfl⟩
  | error why =>
      rw [h] at hvalid
      cases hvalid

theorem exists_sampleScores : ∃ scores, (Scores.validate sampleScores).result = .ok scores :=
  exists_valid (by decide +kernel)

/-- On natural numbers a difference is cut off at zero, on doubles it is rounded. -/
theorem every_solve_ends_cut_off_or_rounded :
    EndsWell (⟨#v[#v[3, 1], #v[2, 5]]⟩ : Grid Nat 2 2) .maximize 0 false ∧
    ∃ scores, (Scores.validate sampleScores).result = .ok scores ∧
      EndsWell scores.grid .minimize Solver.standardTolerance false := by
  obtain ⟨scores, h⟩ := exists_sampleScores
  exact ⟨every_solve_ends.1 Nat.sub_self (by decide) _ _ _ (Nat.le_refl 0), scores, h,
    (every_solve_ends.2 Solver.standard h (by decide +kernel)).1⟩

/-! ## Reached states -/

/-- An attempt on valid scores finds a matching, or it is asked to stop. -/
theorem Solver.attempt_ends (solver : Solver) (check : Option CancelCheck) {input : ScoreInput}
    {scores : SquareGrid Float} (hvalid : (Scores.validate input).result = .ok scores)
    (ht : 0 ≤ solver.tolerance) : (∃ m, (solver.attempt check input).answer.result = .ok m) ∨
      (solver.attempt check input).answer.result = .error .cancelled := by
  have hproper := Scores.validate_ok hvalid
  rw [attempt_result hvalid]
  generalize check.bind CancelCheck.patience = patience
  obtain ⟨past, last, h, hend⟩ := solve_ends
    (progresses_of_proper hproper solver.direction ht patience solver.trace)
    (starCount_begin_pos_of_proper hproper scores.size_pos solver.direction ht)
  unfold result
  rcases hend with ⟨-, hending, -⟩ | ⟨-, hending⟩ <;> rw [hending]
  · exact .inl ⟨_, rfl⟩
  · exact .inr rfl

/-- What holds in every state that a run reaches, whatever its entries and their arithmetic are; so
no check fails, and a solver can only fail where it is asked to stop. -/
theorem every_reached_state_is_marked :
    (∀ {α : Type} [Zero α] [Add α] [Sub α] [LE α] [DecidableLE α] {n : Nat} (scores : Grid α n n)
      (direction : Direction) (t : α) (patience : Option Nat) (trace : Bool),
      (∀ {past r}, Course patience trace (begin scores direction t) past r →
        (r.phase ≠ .start → Marked r.phase r.state) ∧
        (∀ x, r.phase = .flip x → (r.state.flip x).state.crowded? = none) ∧
        (r.phase = .adjust → r.state.openCells ≠ [])) ∧
      ∀ why, (solve scores direction t patience trace).ending ≠ .failed why) ∧
    ∀ (solver : Solver) (check : Option CancelCheck) {input : ScoreInput}
      {scores : SquareGrid Float}, (Scores.validate input).result = .ok scores →
      0 ≤ solver.tolerance →
      (∃ m, (solver.attempt check input).answer.result = .ok m) ∨
        (solver.attempt check input).answer.result = .error .cancelled := by
  constructor
  · intro α _ _ _ _ _ n scores direction t patience trace
    refine ⟨fun {past r} h => ?_, fun why =>
      Run.play_not_failed (begin_sound scores direction t) patience trace _ why⟩
    have hsound := h.sound (begin_sound scores direction t)
    refine ⟨hsound.marked, fun x hx => ?_, fun hadj => ?_⟩
    · rw [hx] at hsound
      exact hsound.1.settled_flip.crowded?_eq_none
    · rw [hadj] at hsound
      obtain ⟨i, j, hi, hj⟩ := hsound.1.exists_open hsound.2.1
      exact List.ne_nil_of_mem (State.mem_openCells.2 ⟨hi, hj⟩ : (i, j) ∈ r.state.openCells)
  · intro solver check input scores hvalid ht
    exact solver.attempt_ends check hvalid ht

/-- Scores whose least entries of rows and columns leave zeros in one row and in one column only. -/
def productScores : Grid Nat 3 3 :=
  ⟨#v[#v[1, 2, 3], #v[2, 4, 6], #v[3, 6, 9]]⟩

theorem endsWell_productScores : EndsWell productScores .minimize 0 false :=
  endsWell_of_progress (progresses_of_sub_self Nat.sub_self (Nat.le_refl 0) none false)
    (starCount_begin_pos_of_sub_self Nat.sub_self (by decide) _ _ (Nat.le_refl 0))

/-- A solve that searches, flips and adjusts is marked where it first adjusts and where it is done;
another one is asked to stop at once. -/
theorem every_reached_state_is_marked_at_done :
    (∃ past r, Course none false (begin productScores .minimize 0) past r ∧ r.phase = .adjust ∧
      Marked r.phase r.state ∧ r.state.openCells ≠ []) ∧
    (∃ past r, Course none false (begin productScores .minimize 0) past r ∧ r.phase = .done ∧
      Marked r.phase r.state ∧ r.state.augmentations = 2 ∧ r.state.adjustments = 1) ∧
    ∃ scores, (Scores.validate sampleScores).result = .ok scores ∧
      ((∃ m, (Solver.standard.attempt (some ⟨0, .bool true⟩) sampleScores).answer.result = .ok m) ∨
        (Solver.standard.attempt (some ⟨0, .bool true⟩) sampleScores).answer.result =
          .error .cancelled) := by
  obtain ⟨past, last, h, hdone, hstate, -⟩ := endsWell_productScores.course
  have hmoves : last.state.augmentations = 2 ∧ last.state.adjustments = 1 := by
    rw [← hstate]
    decide +kernel
  refine ⟨?_, ⟨past, last, h, hdone, ?_, hmoves⟩, ?_⟩
  · obtain ⟨past', r, h', hadjust, -⟩ := h.first_adjustment rfl (by rw [hmoves.2]; decide)
    obtain ⟨hmarked, -, hopen⟩ := (every_reached_state_is_marked.1 _ _ _ _ _).1 h'
    exact ⟨past', r, h', hadjust, hmarked (by rw [hadjust]; simp), hopen hadjust⟩
  · exact ((every_reached_state_is_marked.1 _ _ _ _ _).1 h).1 (by rw [hdone]; simp)
  · obtain ⟨scores, h⟩ := exists_sampleScores
    exact ⟨scores, h, every_reached_state_is_marked.2 Solver.standard _ h (by decide +kernel)⟩

/-! ## Stopped solves -/

/-- A solver that is stopped answers so, and shows and leaves behind what it would have shown when
nobody stops it; one that is not stopped does not notice that it is asked. -/
theorem every_stopped_solve_is_a_start :
    (∀ {α : Type} [Zero α] [Add α] [Sub α] [LE α] [DecidableLE α] {n : Nat},
      (∀ x : α, x - x = 0) → 0 < n → ∀ (scores : Grid α n n) (direction : Direction) {t : α}
      (trace : Bool), 0 ≤ t → Interruptible scores direction t trace) ∧
    ∀ (solver : Solver) {input : ScoreInput} {scores : SquareGrid Float},
      (Scores.validate input).result = .ok scores → 0 ≤ solver.tolerance →
      Interruptible scores.grid solver.direction solver.tolerance solver.trace ∧
      ∃ state : State Float scores.size,
        (solver.attempt none input).solver.last = some ⟨scores.size, state⟩ ∧
        (solver.attempt none input).snapshots.length = state.augmentations + state.adjustments ∧
        ∀ check : CancelCheck,
          (check.answer.isTrue = false ∨
              state.augmentations + state.adjustments ≤ check.after →
            solver.attempt (some check) input = solver.attempt none input) ∧
          (check.answer.isTrue = true → check.after < state.augmentations + state.adjustments →
            (solver.attempt (some check) input).answer.result = .error .cancelled ∧
            (solver.attempt (some check) input).snapshots =
              (solver.attempt none input).snapshots.take (check.after + 1) ∧
            (solver.attempt (some check) input).snapshots.length = check.after + 1 ∧
            (solver.attempt (some check) input).solver.last =
              (solver.attempt none input).snapshots[check.after]?) := by
  constructor
  · intro α _ _ _ _ _ n hsub hn scores direction t trace ht
    exact interruptible_of_progress (progresses_of_sub_self hsub ht none trace)
      (starCount_begin_pos_of_sub_self hsub hn scores direction ht)
  · intro solver input scores hvalid ht
    have hproper := Scores.validate_ok hvalid
    have hstop : Interruptible scores.grid solver.direction solver.tolerance solver.trace :=
      interruptible_of_progress (progresses_of_proper hproper solver.direction ht none solver.trace)
        (starCount_begin_pos_of_proper hproper scores.size_pos solver.direction ht)
    obtain ⟨hlast, hshown⟩ := solver.attempt_state none hvalid
    refine ⟨hstop, _, hlast, ?_, fun check => ⟨fun hcheck => ?_, fun htrue hafter => ?_⟩⟩
    · rw [hshown, List.length_map]
      show (List.reverse _).length = _
      rw [List.length_reverse]
      exact hstop.polls
    -- a check that never stops the solve is none, and one that comes too late stops nothing
    · apply Solver.attempt_congr hvalid
      show solve _ _ _ check.patience _ = solve _ _ _ none _
      unfold CancelCheck.patience
      split
      · rename_i htrue
        apply hstop.unstopped
        rw [hstop.polls]
        exact hcheck.resolve_left (by simp [htrue])
      · rfl
    · have hpatience : (some check).bind CancelCheck.patience = some check.after := by
        show check.patience = _
        unfold CancelCheck.patience
        rw [if_pos htrue]
      obtain ⟨hlast', hshown'⟩ := solver.attempt_state (some check) hvalid
      rw [hpatience] at hlast' hshown'
      obtain ⟨hcancelled, hpolls, hstate, htake⟩ := hstop.stopped (hstop.polls ▸ hafter)
      refine ⟨?_, ?_, ?_, ?_⟩
      · rw [Solver.attempt_result hvalid, hpatience]
        unfold Solver.result
        rw [hcancelled]
      · rw [hshown', hshown, htake, List.map_take]
        rfl
      · rw [hshown', List.length_map]
        show (List.reverse _).length = _
        rw [List.length_reverse]
        exact hpolls
      · rw [hlast', hshown, List.getElem?_map]
        show _ = Option.map _ (solve scores.grid solver.direction solver.tolerance none
          solver.trace).snapshots[check.after]?
        rw [hstate]
        rfl

/-- Two rows that are best matched with the same column. -/
def rivalScores : ScoreInput :=
  .nested (.list [.list [.real 1.0, .real 2.0], .list [.real 1.0, .real 3.0]])

/-- A solve over natural numbers, and one over doubles that is stopped at once. -/
theorem every_stopped_solve_is_a_start_at_once :
    Interruptible (⟨#v[#v[1, 2], #v[1, 3]]⟩ : Grid Nat 2 2) .minimize 0 false ∧
    (Solver.standard.attempt (some ⟨0, .bool true⟩) rivalScores).answer.result =
      .error .cancelled ∧
    (Solver.standard.attempt (some ⟨0, .bool false⟩) rivalScores) =
      Solver.standard.attempt none rivalScores := by
  have hvalid : (Scores.validate rivalScores).result.toOption.isSome = true := by decide +kernel
  obtain ⟨scores, h⟩ := exists_valid hvalid
  obtain ⟨-, state, hlast, -, hcheck⟩ :=
    every_stopped_solve_is_a_start.2 Solver.standard h (by decide +kernel)
  have hpolls : ((Solver.standard.attempt none rivalScores).solver.last.map fun s =>
      s.state.augmentations + s.state.adjustments) = some 1 := by decide +kernel
  rw [hlast, Option.map_some, Option.some.injEq] at hpolls
  have hpos : 0 < state.augmentations + state.adjustments := hpolls ▸ Nat.one_pos
  refine ⟨every_stopped_solve_is_a_start.1 Nat.sub_self (by decide) _ _ _ (Nat.le_refl 0),
    ((hcheck ⟨0, .bool true⟩).2 rfl hpos).1, (hcheck ⟨0, .bool false⟩).1 (.inl rfl)⟩

/-! ## Adjustments -/

/-- An adjustment is only made where no more zeros can be starred, and a solve without any is one
that has an independent zero for each row from the start. -/
theorem every_adjustment_is_unavoidable :
    (∀ {α : Type} [Zero α] [Add α] [Sub α] [LE α] [DecidableLE α] {n : Nat} (scores : Grid α n n)
      (direction : Direction) (t : α) (patience : Option Nat) (trace : Bool)
      {past : List (Taken α n)} {r : Run α n},
      Course patience trace (begin scores direction t) past r →
      (r.phase = .adjust → Exhausted t r.state) ∧
      (r.phase = .done → (r.state.adjustments = 0 ↔ ∃ cells : Finset (Cell n n),
        Independent (scores.normalize direction) t cells ∧ cells.card = n))) ∧
    ∀ (solver : Solver) {input : ScoreInput} {scores : SquareGrid Float},
      (Scores.validate input).result = .ok scores → 0 ≤ solver.tolerance →
      ∃ (m : Matching Float scores.size scores.size) (state : State Float scores.size),
        (solver.run input).result = .ok ⟨scores.size, m⟩ ∧
        (solver.attempt none input).solver.last = some ⟨scores.size, state⟩ ∧
        (state.adjustments = 0 ↔ ∃ cells : Finset (Cell scores.size scores.size),
          Independent (scores.grid.normalize solver.direction) solver.tolerance cells ∧
            cells.card = scores.size) := by
  have hruns : ∀ {α : Type} [Zero α] [Add α] [Sub α] [LE α] [DecidableLE α] {n : Nat}
      (scores : Grid α n n) (direction : Direction) (t : α) (patience : Option Nat) (trace : Bool)
      {past : List (Taken α n)} {r : Run α n},
      Course patience trace (begin scores direction t) past r →
      (r.phase = .adjust → Exhausted t r.state) ∧
      (r.phase = .done → (r.state.adjustments = 0 ↔ ∃ cells : Finset (Cell n n),
        Independent (scores.normalize direction) t cells ∧ cells.card = n)) := by
    intro α _ _ _ _ _ n scores direction t patience trace past r h
    have hsound := begin_sound scores direction t
    refine ⟨fun hadj => ?_, fun hdone =>
      h.adjustments_eq_zero_iff hsound (begin_markedZero scores direction t) rfl hdone⟩
    have hr := h.sound hsound
    rw [hadj] at hr
    have hexhausted := hr.exhausted
    rw [h.tolerance] at hexhausted
    exact hexhausted
  refine ⟨hruns, fun solver input scores hvalid ht => ?_⟩
  have hproper := Scores.validate_ok hvalid
  have hends : EndsWell scores.grid solver.direction solver.tolerance solver.trace :=
    endsWell_of_progress (progresses_of_proper hproper solver.direction ht none solver.trace)
      (starCount_begin_pos_of_proper hproper scores.size_pos solver.direction ht)
  obtain ⟨past, last, h, hdone, hstate, -⟩ := hends.course
  refine ⟨_, last.state, solver.run_of_endsWell hvalid hends, ?_, (hruns _ _ _ _ _ h).2 hdone⟩
  rw [(solver.attempt_state none hvalid).1, ← hstate]
  rfl

/-- A solve that comes to an adjustment, and one without any. -/
theorem every_adjustment_is_unavoidable_sample :
    (∃ past r, Course none false (begin productScores .minimize 0) past r ∧ r.phase = .adjust ∧
      Exhausted 0 r.state) ∧
    ∃ scores, (Scores.validate sampleScores).result = .ok scores ∧
      ∃ cells : Finset (Cell scores.size scores.size),
        Independent (scores.grid.normalize .minimize) Solver.standardTolerance cells ∧
          cells.card = scores.size := by
  constructor
  · obtain ⟨past, last, h, -, hstate, -⟩ := endsWell_productScores.course
    have hlast : last.state.adjustments ≠ 0 := by
      rw [← hstate]
      decide +kernel
    obtain ⟨past', r, h', hadj, -⟩ := h.first_adjustment rfl hlast
    exact ⟨past', r, h', hadj, (every_adjustment_is_unavoidable.1 _ _ _ _ _ h').1 hadj⟩
  · obtain ⟨scores, h⟩ := exists_sampleScores
    obtain ⟨m, state, -, hlast, hzero⟩ :=
      every_adjustment_is_unavoidable.2 Solver.standard h (by decide +kernel)
    have hnone : ((Solver.standard.attempt none sampleScores).solver.last.map fun s =>
        s.state.adjustments) = some 0 := by decide +kernel
    rw [hlast, Option.map_some, Option.some.injEq] at hnone
    exact ⟨scores, h, hzero.1 hnone⟩

end OptimalAssignment
