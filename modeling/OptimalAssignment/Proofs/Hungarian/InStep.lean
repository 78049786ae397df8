import OptimalAssignment.Proofs.Hungarian.Image
import OptimalAssignment.Proofs.Hungarian.Optimality

/-!
# Runs in step

Two runs are in step if they go from phase to phase alike and each state of the one is that of the
other, changed in a way that is the same for all states.  A run is in step with its image, and with
any run that begins in the same state, whatever that has reported before.  Solves in step end alike
and find the same matrix.
-/

namespace OptimalAssignment.Hungarian

variable {α β : Type} {n : Nat}

/-- The runs are in the same phase, and so are their states, up to the change. -/
structure Run.Alike (f : State α n → State β n) (r : Run α n) (s : Run β n) : Prop where
  phase : s.phase = r.phase
  state : s.state = f r.state
  asked : s.asked = r.asked.map f

def Taken.Alike (f : State α n → State β n) (k : Taken α n) (m : Taken β n) : Prop :=
  k.before.Alike f m.before ∧ k.after.Alike f m.after

section Runs

variable [Add α] [Sub α] [LE α] [DecidableLE α] [Add β] [Sub β] [LE β] [DecidableLE β]

/-- Each course of one run has one of the other beside it, turn by turn, and the runs end alike. -/
structure InStep (f : State α n → State β n) (patience : Option Nat) (trace : Bool)
    (first : Run α n) (other : Run β n) : Prop where
  forth : ∀ {past r}, Course patience trace first past r →
    ∃ past' r', Course patience trace other past' r' ∧
      List.Forall₂ (Taken.Alike f) past past' ∧ r.Alike f r'
  back : ∀ {past' r'}, Course patience trace other past' r' →
    ∃ past r, Course patience trace first past r ∧
      List.Forall₂ (Taken.Alike f) past past' ∧ r.Alike f r'
  play : ∀ turns, (other.play patience trace turns).1 = (first.play patience trace turns).1 ∧
    (first.play patience trace turns).2.Alike f (other.play patience trace turns).2

/-! ## Images -/

omit [Add α] [Sub α] [LE α] [DecidableLE α] [Add β] [Sub β] [LE β] [DecidableLE β] in
theorem Run.alike_map (f : α → β) (t : β) (r : Run α n) : r.Alike (State.map f t) (r.map f t) :=
  ⟨rfl, rfl, rfl⟩

omit [Add α] [Sub α] [LE α] [DecidableLE α] [Add β] [Sub β] [LE β] [DecidableLE β] in
theorem Taken.alike_map (f : α → β) (t : β) (past : List (Taken α n)) :
    List.Forall₂ (Taken.Alike (State.map f t)) past (past.map (Taken.map f t)) := by
  rw [List.forall₂_map_right_iff, List.forall₂_same]
  exact fun k _ => ⟨k.before.alike_map f t, k.after.alike_map f t⟩

theorem inStep_map {f : α → β} {t : β} {patience : Option Nat} {trace : Bool} {first : Run α n}
    (hfaith : first.AlwaysFaithful f t patience trace) :
    InStep (State.map f t) patience trace first (first.map f t) where
  forth {past r} h :=
    ⟨_, _, h.map hfaith, Taken.alike_map f t past, r.alike_map f t⟩
  back h' := by
    obtain ⟨past, r, h, rfl, rfl⟩ := Course.of_map hfaith h'
    exact ⟨past, r, h, Taken.alike_map f t past, r.alike_map f t⟩
  play turns := by
    rw [Course.play_map hfaith .here turns]
    exact ⟨rfl, Run.alike_map f t _⟩

end Runs

/-! ## Reports -/

/-- The run without what it has reported. -/
def Run.silent (r : Run α n) : Run α n :=
  { r with events := [] }

def Turn.silent : Turn α n → Turn α n
  | .goesOn r => .goesOn r.silent
  | .ends how r => .ends how r.silent

namespace Run

variable {r s : Run α n}

theorem silent_eq_iff : r.silent = s.silent ↔
    r.state = s.state ∧ r.phase = s.phase ∧ r.asked = s.asked := by
  simp [silent]

theorem alike_of_silent (h : r.silent = s.silent) : r.Alike id s := by
  obtain ⟨hstate, hphase, hasked⟩ := silent_eq_iff.1 h
  exact ⟨hphase.symm, hstate.symm, by rw [List.map_id, hasked]⟩

theorem goOn_silent (patience : Option Nat) (before : Phase n) (h : r.silent = s.silent) :
    (goOn patience before r).silent = (goOn patience before s).silent := by
  obtain ⟨hstate, hphase, hasked⟩ := silent_eq_iff.1 h
  have hcount : r.count.silent = s.count.silent :=
    silent_eq_iff.2 ⟨congrArg State.counted hstate, hphase, hasked⟩
  unfold goOn polls
  simp only [hstate, hphase, hasked]
  split
  · split <;> rfl
  · exact congrArg Turn.goesOn hcount

variable [Add α] [Sub α] [LE α] [DecidableLE α]

/-- No turn looks at what has been reported. -/
theorem turn_silent (patience : Option Nat) (trace : Bool) (h : r.silent = s.silent) :
    (r.turn patience trace).silent = (s.turn patience trace).silent := by
  obtain ⟨hstate, hphase, hasked⟩ := silent_eq_iff.1 h
  -- a stage replaces the state and the phase
  have hmove : ∀ {r s : Run α n} (m : Moved α n), r.asked = s.asked →
      (r.move m).silent = (s.move m).silent :=
    fun m hasked => silent_eq_iff.2 ⟨rfl, rfl, hasked⟩
  unfold turn
  rw [hphase, hstate]
  cases s.phase with
  | done => exact congrArg (Turn.ends .finished) h
  | start => exact goOn_silent _ _ (hmove _ hasked)
  | test => exact goOn_silent _ _ (hmove _ hasked)
  | search =>
      apply goOn_silent
      cases trace with
      | false =>
          show (r.move r.state.search).silent = (s.move s.state.search).silent
          rw [hstate]
          exact hmove _ hasked
      | true =>
          show ((r.report .searching).move r.state.search).silent =
            ((s.report .searching).move s.state.search).silent
          rw [hstate]
          exact hmove _ hasked
  | flip x =>
      have hcrowded : ∀ r : Run α n, (r.move (s.state.flip x)).state.crowded? =
          (s.state.flip x).state.crowded? := fun _ => rfl
      simp only [hcrowded]
      cases (s.state.flip x).state.crowded? with
      | some line => exact congrArg (Turn.ends (.failed (.crowded line))) (hmove _ hasked)
      | none => exact goOn_silent _ _ (hmove _ hasked)
  | adjust =>
      cases s.state.adjust? with
      | some m => exact goOn_silent _ _ (hmove m hasked)
      | none => exact congrArg (Turn.ends (.failed .allCovered)) h

end Run

section Silent

variable [Add α] [Sub α] [LE α] [DecidableLE α] {patience : Option Nat} {trace : Bool}
  {first other : Run α n}

theorem Course.beside (hfirst : first.silent = other.silent) {past : List (Taken α n)}
    {r : Run α n} (h : Course patience trace first past r) :
    ∃ past' r', Course patience trace other past' r' ∧
      List.Forall₂ (fun k m => k.before.silent = m.before.silent ∧
        k.after.silent = m.after.silent) past past' ∧ r.silent = r'.silent := by
  induction h with
  | here => exact ⟨[], other, .here, .nil, hfirst⟩
  | @turn past r s _ hs ih =>
      obtain ⟨past', r', h', hpast, hr⟩ := ih
      have hturn := Run.turn_silent patience trace hr
      rw [hs] at hturn
      -- the turn beside this one goes on as well
      cases hs' : r'.turn patience trace with
      | goesOn s' =>
          rw [hs'] at hturn
          have hrel : s.silent = s'.silent := Turn.goesOn.inj hturn
          exact ⟨⟨r', s'⟩ :: past', s', h'.turn hs', .cons ⟨hr, hrel⟩ hpast, hrel⟩
      | ends how s' =>
          rw [hs'] at hturn
          cases hturn

theorem Run.play_silent (h : first.silent = other.silent) (turns : Nat) :
    (first.play patience trace turns).1 = (other.play patience trace turns).1 ∧
      (first.play patience trace turns).2.silent = (other.play patience trace turns).2.silent := by
  induction turns generalizing first other with
  | zero => exact ⟨rfl, h⟩
  | succ turns ih =>
      have hturn := turn_silent patience trace h
      rw [play, play]
      generalize first.turn patience trace = u, other.turn patience trace = v at hturn
      cases u with
      | goesOn r =>
          cases v with
          | goesOn s => exact ih (Turn.goesOn.inj hturn)
          | ends how s => cases hturn
      | ends how r =>
          cases v with
          | goesOn s => cases hturn
          | ends how' s => exact Turn.ends.inj hturn

theorem inStep_of_silent (h : first.silent = other.silent) :
    InStep id patience trace first other where
  forth hcourse := by
    obtain ⟨past', r', h', hpast, hr⟩ := hcourse.beside h
    exact ⟨past', r', h', hpast.imp fun _ _ hk =>
      ⟨Run.alike_of_silent hk.1, Run.alike_of_silent hk.2⟩, Run.alike_of_silent hr⟩
  back hcourse := by
    obtain ⟨past, r, h', hpast, hr⟩ := hcourse.beside h.symm
    exact ⟨past, r, h', hpast.flip.imp fun _ _ hk =>
      ⟨Run.alike_of_silent hk.1.symm, Run.alike_of_silent hk.2.symm⟩, Run.alike_of_silent hr.symm⟩
  play turns := by
    obtain ⟨hending, hlast⟩ := Run.play_silent h turns
    exact ⟨hending.symm, Run.alike_of_silent hlast⟩

end Silent

/-! ## Solves -/

/-- The solves end alike, with states that are changed and the same matrix. -/
structure Solved.Alike (f : State α n → State β n) (solved : Solved α n) (other : Solved β n) :
    Prop where
  ending : other.ending = solved.ending
  state : other.run.state = f solved.run.state
  snapshots : other.snapshots = solved.snapshots.map f
  matrix : other.matching.matrix = solved.matching.matrix

section Solves

variable [Zero α] [Add α] [Sub α] [LE α] [DecidableLE α]

theorem solve_matching (scores : Grid α n n) (direction : Direction) (t : α)
    (patience : Option Nat) (trace : Bool) :
    (solve scores direction t patience trace).matching =
      (solve scores direction t patience trace).run.state.matching scores direction := by
  unfold solve
  dsimp only
  split <;> rfl

variable [Zero β] [Add β] [Sub β] [LE β] [DecidableLE β] {scores : Grid α n n}
  {direction : Direction} {t : α} {scores' : Grid β n n} {direction' : Direction} {t' : β}
  {patience : Option Nat} {trace : Bool} {f : State α n → State β n}

theorem InStep.solve_alike
    (h : InStep f patience trace (begin scores direction t) (begin scores' direction' t'))
    (hmarks : ∀ s, (f s).marks = s.marks) :
    (solve scores direction t patience trace).Alike f
      (solve scores' direction' t' patience trace) := by
  obtain ⟨hending, halike⟩ := h.play (turnLimit n patience)
  obtain ⟨hending₁, hstate₁, hasked₁⟩ := solve_of_play (Prod.eta
    ((begin scores direction t).play patience trace (turnLimit n patience))).symm
  obtain ⟨hending₂, hstate₂, hasked₂⟩ := solve_of_play (Prod.eta
    ((begin scores' direction' t').play patience trace (turnLimit n patience))).symm
  have hstate : (solve scores' direction' t' patience trace).run.state =
      f (solve scores direction t patience trace).run.state := by
    rw [hstate₁, hstate₂, halike.state]
  refine ⟨by rw [hending₁, hending₂, hending], hstate, ?_, ?_⟩
  · unfold Solved.snapshots
    rw [hasked₁, hasked₂, halike.asked, List.map_reverse]
  · rw [solve_matching, solve_matching, hstate]
    simp only [State.matching, Matching.ofMatrix, hmarks]

end Solves
end OptimalAssignment.Hungarian
