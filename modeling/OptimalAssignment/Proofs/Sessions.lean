import OptimalAssignment.Proofs.Scores.Refusals
import OptimalAssignment.Proofs.Settings
import OptimalAssignment.Proofs.Solver

/-!
# Solvers that are used again

A solver is called again and again, and between the calls its settings may change.  What a solve
left behind is only replaced, never read: so every call is answered as by a solver that has just
been made with the settings of that time, whatever happened in the calls before it.
-/

namespace OptimalAssignment

open Binary Hungarian

/-- The settings that are changed before a call, the check it is given, and the scores. -/
structure Call where
  direction : Option Direction
  tolerance : Option Float
  check : Option CancelCheck
  input : ScoreInput

namespace Solver

def change (solver : Solver) (call : Call) : Solver :=
  { solver with
    direction := call.direction.getD solver.direction
    tolerance := call.tolerance.getD solver.tolerance }

def serve (solver : Solver) (call : Call) : Attempt :=
  (solver.change call).attempt call.check call.input

/-- The solver as the calls leave it. -/
def served (solver : Solver) (calls : List Call) : Solver :=
  calls.foldl (fun s call => (s.serve call).solver) solver

/-- The attempts of one call after the other. -/
def session : Solver → List Call → List Attempt
  | _, [] => []
  | solver, call :: calls =>
      let attempt := solver.serve call
      attempt :: attempt.solver.session calls

/-- A solver with the same settings that has solved nothing yet. -/
def fresh (solver : Solver) : Solver :=
  { solver with last := none }

/-- The tolerance is finite and not negative. -/
def Usable (solver : Solver) : Prop :=
  0 ≤ solver.tolerance ∧ solver.tolerance.isFinite = true

end Solver

def Call.Usable (call : Call) : Prop :=
  ∀ t, call.tolerance = some t → 0 ≤ t ∧ t.isFinite = true

namespace Solver

/-! ## One call -/

theorem create_fresh {solver : Solver} (h : solver.Usable) :
    create (.text solver.direction.word) (.real solver.tolerance) (.bool solver.trace) =
      ⟨[], .ok solver.fresh⟩ := by
  rw [Settings.create_solver, if_pos ⟨h.2, not_lt_zero h.1⟩]
  rfl

theorem Usable.change {solver : Solver} (h : solver.Usable) {call : Call} (hcall : call.Usable) :
    (solver.change call).Usable := by
  unfold Solver.change Usable
  cases ht : call.tolerance with
  | none => exact h
  | some t => exact hcall t ht

theorem fresh_change (solver : Solver) (call : Call) :
    (solver.change call).fresh = solver.fresh.change call :=
  rfl

/-- An attempt does not look at what earlier ones left, and it keeps the settings. -/
theorem attempt_fresh (solver : Solver) (check : Option CancelCheck) (input : ScoreInput) :
    (solver.attempt check input).answer = (solver.fresh.attempt check input).answer ∧
      (solver.attempt check input).snapshots = (solver.fresh.attempt check input).snapshots ∧
      (solver.attempt check input).solver.fresh = solver.fresh := by
  cases h : (Scores.validate input).result with
  | error why =>
      rw [Scores.attempt_of_error solver check h, Scores.attempt_of_error solver.fresh check h]
      exact ⟨rfl, rfl, rfl⟩
  | ok scores =>
      unfold attempt
      simp only [h]
      exact ⟨rfl, rfl, rfl⟩

/-- Valid scores replace what was left before. -/
theorem last_of_valid (solver : Solver) (check : Option CancelCheck) {input : ScoreInput}
    {scores : SquareGrid Float} (h : (Scores.validate input).result = .ok scores) :
    (solver.attempt check input).solver.last = (solver.fresh.attempt check input).solver.last := by
  rw [(solver.attempt_state check h).1, (solver.fresh.attempt_state check h).1]
  rfl

/-! ## Many calls -/

/-- After any calls the settings are those that were given last. -/
theorem fresh_served (solver : Solver) (calls : List Call) :
    (solver.served calls).fresh = calls.foldl change solver.fresh := by
  induction calls generalizing solver with
  | nil => rfl
  | cons call calls ih =>
      have hserve : (solver.serve call).solver.fresh = solver.fresh.change call :=
        (attempt_fresh (solver.change call) call.check call.input).2.2
      show ((solver.serve call).solver.served calls).fresh = _
      rw [ih, hserve]
      rfl

theorem Usable.foldl {solver : Solver} (h : solver.Usable) {calls : List Call}
    (hcalls : ∀ call ∈ calls, call.Usable) : (calls.foldl Solver.change solver).Usable := by
  induction calls generalizing solver with
  | nil => exact h
  | cons call calls ih =>
      apply ih (h.change (hcalls call List.mem_cons_self))
      exact fun c hc => hcalls c (List.mem_cons_of_mem _ hc)

/-- A call is served by the solver that the calls before it leave. -/
theorem session_getElem? (solver : Solver) (before : List Call) (call : Call)
    (after : List Call) : (solver.session (before ++ call :: after))[before.length]? =
      some ((solver.served before).serve call) := by
  induction before generalizing solver with
  | nil => rfl
  | cons first before ih => exact ih (solver.serve first).solver

/-- Among any calls of one solver, each is answered as by a solver that is made for it alone.  If
its scores are valid, both solvers are left in the same state, and otherwise this one stays as the
calls before it left it. -/
theorem every_call_is_answered_afresh {solver : Solver} {before after : List Call} {call : Call}
    (hsolver : solver.Usable) (hcalls : ∀ c ∈ before ++ call :: after, c.Usable) :
    ∃ (served : Attempt) (alone : Solver),
      (solver.session (before ++ call :: after))[before.length]? = some served ∧
      served.solver = solver.served (before ++ [call]) ∧
      alone = (before ++ [call]).foldl change solver.fresh ∧
      create (.text alone.direction.word) (.real alone.tolerance) (.bool alone.trace) =
        ⟨[], .ok alone⟩ ∧
      served.answer = (alone.attempt call.check call.input).answer ∧
      served.snapshots = (alone.attempt call.check call.input).snapshots ∧
      (∀ scores, (Scores.validate call.input).result = .ok scores →
        served.solver.last = (alone.attempt call.check call.input).solver.last ∧
        ((∃ m, served.answer.result = .ok m) ∨ served.answer.result = .error .cancelled)) ∧
      ∀ why, (Scores.validate call.input).result = .error why →
        served.solver.last = (solver.served before).last ∧ served.snapshots = [] ∧
          served.answer.result = .error (.scores why) := by
  have halone : ((solver.served before).change call).fresh =
      (before ++ [call]).foldl change solver.fresh := by
    rw [fresh_change, fresh_served, List.foldl_append]
    rfl
  have husable : ((solver.served before).change call).Usable := by
    have hgiven : ∀ c ∈ before ++ [call], c.Usable := by
      intro c hc
      apply hcalls c
      simp only [List.mem_append, List.mem_cons, List.not_mem_nil, or_false] at hc ⊢
      tauto
    have hfresh : solver.fresh.Usable := hsolver
    have hlast := hfresh.foldl hgiven
    rw [← halone] at hlast
    exact hlast
  obtain ⟨hanswer, hsnapshots, -⟩ :=
    attempt_fresh ((solver.served before).change call) call.check call.input
  have hserved : ((solver.served before).serve call).solver = solver.served (before ++ [call]) := by
    unfold served
    rw [List.foldl_append]
    rfl
  refine ⟨_, _, solver.session_getElem? before call after, hserved, halone, create_fresh husable,
    hanswer, hsnapshots, fun scores h => ?_, fun why h => ?_⟩
  · exact ⟨last_of_valid _ call.check h, attempt_ends _ call.check h husable.1⟩
  · have hrefused := Scores.attempt_of_error ((solver.served before).change call) call.check h
    unfold serve
    rw [hrefused]
    exact ⟨rfl, rfl, rfl⟩

/-- A call that is refused and changes the direction, after one that succeeds. -/
def refusedCall : Call :=
  ⟨some .maximize, none, none, .nested (.list [])⟩

/-- A call that is stopped and changes the tolerance. -/
def stoppedCall : Call :=
  ⟨none, some 0.5, some ⟨0, .bool true⟩, rivalScores⟩

theorem mixed_calls_are_answered_afresh :
    (∀ c ∈ [⟨none, none, none, sampleScores⟩, refusedCall, stoppedCall], c.Usable) ∧
    ∃ refused stopped,
      (standard.session [⟨none, none, none, sampleScores⟩, refusedCall, stoppedCall])[1]? =
        some refused ∧
      refused.solver.last = (standard.attempt none sampleScores).solver.last ∧
      (standard.session [⟨none, none, none, sampleScores⟩, refusedCall, stoppedCall])[2]? =
        some stopped ∧
      stopped.answer = (Solver.attempt ⟨.maximize, 0.5, false, none⟩ (some ⟨0, .bool true⟩)
        rivalScores).answer := by
  have hstandard : standard.Usable := ⟨by decide +kernel, by decide +kernel⟩
  have hcalls : ∀ c ∈ [⟨none, none, none, sampleScores⟩, refusedCall, stoppedCall], c.Usable := by
    simp only [List.forall_mem_cons]
    refine ⟨nofun, nofun, fun t ht => ?_, nofun⟩
    cases ht
    exact ⟨by decide, by decide⟩
  obtain ⟨why, hwhy⟩ : ∃ why, (Scores.validate refusedCall.input).result = .error why := by
    have hnone : (Scores.validate refusedCall.input).result.toOption.isSome = false := by
      decide +kernel
    cases h : (Scores.validate refusedCall.input).result with
    | error why => exact ⟨why, rfl⟩
    | ok scores =>
        rw [h] at hnone
        cases hnone
  -- the second call follows one, the third follows two
  have hsecond : ∀ c ∈ [⟨none, none, none, sampleScores⟩] ++ refusedCall :: [stoppedCall],
      c.Usable := hcalls
  have hthird : ∀ c ∈ [⟨none, none, none, sampleScores⟩, refusedCall] ++ stoppedCall :: [],
      c.Usable := hcalls
  obtain ⟨refused, -, hrefused, -, -, -, -, -, -, hkept⟩ :=
    every_call_is_answered_afresh hstandard hsecond
  obtain ⟨stopped, alone, hstopped, -, rfl, -, hanswer, -⟩ :=
    every_call_is_answered_afresh hstandard hthird
  exact ⟨hcalls, refused, stopped, hrefused, (hkept why hwhy).1, hstopped, hanswer⟩

end Solver

end OptimalAssignment
