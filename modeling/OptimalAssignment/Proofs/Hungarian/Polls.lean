import OptimalAssignment.Proofs.Hungarian.Termination

/-!
# Being asked to go on

A run is asked where a search begins that does not go on with another one, and nowhere else.  By the
time it is done that was once for each augmentation and once for each adjustment.  Up to the point
where a run is stopped it takes the same turns as the run that nobody stops, and then it shows the
state that the other one shows when it is asked there.
-/

namespace OptimalAssignment.Hungarian

variable {α : Type} {n : Nat}

/-- The turn leads to a search from elsewhere. -/
def Taken.opens (k : Taken α n) : Bool :=
  k.after.phase == .search && k.before.phase != .search

/-- One for a search that was asked for and has led neither to an augmentation nor to an adjustment
so far. -/
def Phase.pending : Phase n → Nat
  | .search => 1
  | .flip _ => 1
  | .adjust => 1
  | _ => 0

section Turns

variable [Add α] [Sub α] [LE α] [DecidableLE α]

theorem Advance.asks_eq {p q : Phase n} {s t : State α n} (h : Advance p s q t) :
    asks p q = (q == .search && p != .search) := by
  cases h <;> rfl

/-! ## Single turns -/

namespace Run

variable {patience : Option Nat} {trace : Bool} {r s u : Run α n}

omit [Add α] [Sub α] [LE α] [DecidableLE α] in
theorem goOn_none (before : Phase n) (m : Run α n) :
    goOn none before m =
      .goesOn (if asks before m.phase then { m with asked := m.state :: m.asked }.count
        else m.count) := by
  unfold goOn
  split <;> rfl

/-- The stage of a turn does not depend on the patience, only what comes of asking does. -/
theorem turn_cases (trace : Bool) (r : Run α n) :
    (∃ m : Run α n, m.asked = r.asked ∧
      ∀ patience, r.turn patience trace = goOn patience r.phase m) ∨
    ∃ how s, how ≠ .cancelled ∧ ∀ patience, r.turn patience trace = .ends how s := by
  unfold turn
  split
  case h_1 => exact .inr ⟨.finished, r, by simp, fun _ => rfl⟩
  case h_2 hr => exact .inl ⟨r.move r.state.start, rfl, fun _ => by rw [hr]⟩
  case h_3 hr => exact .inl ⟨r.move r.state.test, rfl, fun _ => by rw [hr]⟩
  case h_4 hr =>
    -- a trace adds an event before the stage
    let noted := if trace then r.report .searching else r
    have hnoted : noted.asked = r.asked := by cases trace <;> rfl
    exact .inl ⟨noted.move noted.state.search, hnoted, fun _ => by rw [hr]⟩
  case h_5 x hr =>
    simp only []
    split
    · exact .inr ⟨_, _, by simp, fun _ => rfl⟩
    · exact .inl ⟨r.move (r.state.flip x), rfl, fun _ => by rw [hr]⟩
  case h_6 hr =>
    split
    · rename_i m _
      exact .inl ⟨r.move m, rfl, fun _ => by rw [hr]⟩
    · exact .inr ⟨_, _, by simp, fun _ => rfl⟩

theorem turn_none_of_goesOn (h : r.turn patience trace = .goesOn s) :
    r.turn none trace = .goesOn s := by
  rcases turn_cases trace r with ⟨m, -, hturn⟩ | ⟨how, u, -, hturn⟩
  · rw [hturn] at h ⊢
    rw [goOn_none]
    unfold goOn at h
    split at h
    · rename_i hasks
      simp only [] at h
      split at h
      · cases h
      · rw [if_pos hasks]
        exact h
    · rename_i hasks
      rw [if_neg hasks]
      exact h
  · rw [hturn] at h ⊢
    cases h

theorem turn_of_not_asks (h : r.turn none trace = .goesOn s) (hasks : asks r.phase s.phase = false)
    (patience : Option Nat) : r.turn patience trace = .goesOn s ∧ s.asked = r.asked := by
  rcases turn_cases trace r with ⟨m, hm, hturn⟩ | ⟨how, u, -, hturn⟩
  · have hs := h
    rw [hturn, goOn_none] at hs
    have hphase : s.phase = m.phase := (goOn_goesOn (hturn none ▸ h)).1
    rw [hphase] at hasks
    rw [hasks, if_neg (by simp)] at hs
    cases hs
    rw [hturn]
    unfold goOn
    rw [hasks, if_neg (by simp)]
    exact ⟨rfl, hm⟩
  · rw [hturn] at h
    cases h

/-- Where the run is asked it shows the state that it would go on with, and it ends there if its
patience does. -/
theorem turn_of_asks (h : r.turn none trace = .goesOn s) (hasks : asks r.phase s.phase = true) :
    ∃ u : Run α n, u.state.counted = s.state ∧ u.asked = s.asked ∧ s.asked = u.state :: r.asked ∧
      ∀ k, r.turn (some k) trace = if k = r.polls then .ends .cancelled u else .goesOn s := by
  rcases turn_cases trace r with ⟨m, hm, hturn⟩ | ⟨how, u, -, hturn⟩
  · have hs := h
    rw [hturn, goOn_none] at hs
    have hphase : s.phase = m.phase := (goOn_goesOn (hturn none ▸ h)).1
    rw [hphase] at hasks
    rw [hasks, if_pos rfl] at hs
    cases hs
    refine ⟨({ m with asked := m.state :: m.asked } : Run α n).report .cancelled, rfl, rfl,
      congrArg _ hm, fun k => ?_⟩
    have hpolls : m.polls = r.polls := congrArg List.length hm
    rw [hturn]
    unfold goOn
    rw [hasks, if_pos rfl]
    simp only [Option.some.injEq, hpolls]
  · rw [hturn] at h
    cases h

/-- A run that is stopped would have gone on from the state that it shows. -/
theorem turn_cancelled (h : r.turn patience trace = .ends .cancelled u) :
    ∃ s, r.turn none trace = .goesOn s ∧ asks r.phase s.phase = true ∧
      u.state.counted = s.state ∧ u.asked = s.asked := by
  rcases turn_cases trace r with ⟨m, -, hturn⟩ | ⟨how, v, hhow, hturn⟩
  · rw [hturn] at h
    unfold goOn at h
    split at h
    · rename_i hasks
      simp only [] at h
      split at h
      · cases h
        rw [hturn, goOn_none, if_pos hasks]
        exact ⟨_, rfl, hasks, rfl, rfl⟩
      · cases h
    · cases h
  · rw [hturn] at h
    cases h
    exact absurd rfl hhow

end Run

/-! ## Courses -/

namespace Course

variable {patience : Option Nat} {trace : Bool} {first r : Run α n} {past : List (Taken α n)}

theorem unlimited (h : Course patience trace first past r) : Course none trace first past r := by
  induction h with
  | here => exact .here
  | turn _ hs ih => exact ih.turn (Run.turn_none_of_goesOn hs)

/-- The states that were shown are, once counted, those at which a search began. -/
theorem asked_eq (h : Course none trace first past r) :
    r.asked.map State.counted =
      (past.filter Taken.opens).map (fun k => k.after.state) ++ first.asked.map State.counted := by
  induction h with
  | here => rfl
  | @turn past r s _ hs ih =>
      have hopens : Taken.opens ⟨r, s⟩ = asks r.phase s.phase :=
        (Run.advance_of_turn hs).asks_eq.symm
      cases hasks : asks r.phase s.phase with
      | false =>
          rw [List.filter_cons_of_neg (by rw [hopens, hasks]; simp),
            (Run.turn_of_not_asks hs hasks none).2, ih]
      | true =>
          obtain ⟨u, hcounted, -, hasked, -⟩ := Run.turn_of_asks hs hasks
          rw [List.filter_cons_of_pos (by rw [hopens, hasks]), hasked, List.map_cons, hcounted, ih]
          rfl

theorem polls_succ {s : Run α n} (hs : r.turn none trace = .goesOn s) :
    s.polls = r.polls + if asks r.phase s.phase then 1 else 0 := by
  unfold Run.polls
  cases hasks : asks r.phase s.phase with
  | false =>
      rw [(Run.turn_of_not_asks hs hasks none).2]
      rfl
  | true =>
      obtain ⟨u, -, -, hasked, -⟩ := Run.turn_of_asks hs hasks
      rw [hasked]
      rfl

theorem polls_eq (h : Course none trace first past r) (hfresh : first.Fresh)
    (hasked : first.asked = []) :
    r.polls = r.state.augmentations + r.state.adjustments + r.phase.pending := by
  induction h with
  | here =>
      unfold Run.polls
      rw [hasked, hfresh.augmentations, hfresh.adjustments, hfresh.phase]
      rfl
  | @turn past r s _ hs ih =>
      have hadv := Run.advance_of_turn hs
      rw [polls_succ hs, hadv.asks_eq, ih]
      -- what was asked for stays pending until a flip or an adjustment counts it
      generalize r.phase = p, s.phase = q, r.state = a, s.state = b at hadv
      cases hadv with
      | start =>
          show _ = a.start.state.augmentations + a.start.state.adjustments + 0
          rw [a.sameEntries_start]
          rfl
      | flip =>
          show a.augmentations + a.adjustments + 1 + 0 = a.augmentations + 1 + a.adjustments + 0
          omega
      | adjust =>
          show a.augmentations + a.adjustments + 1 + 1 = a.augmentations + (a.adjustments + 1) + 1
          omega
      | _ => rfl

theorem patient (h : Course none trace first past r) {k : Nat} (hk : r.polls ≤ k) :
    Course (some k) trace first past r := by
  induction h with
  | here => exact .here
  | @turn past r s _ hs ih =>
      have hpolls := polls_succ hs
      refine (ih (by omega)).turn ?_
      cases hasks : asks r.phase s.phase with
      | false => exact (Run.turn_of_not_asks hs hasks _).1
      | true =>
          obtain ⟨u, -, -, -, hturn⟩ := Run.turn_of_asks hs hasks
          rw [hasks] at hpolls
          -- the patience lasts beyond the times that the run was asked
          rw [hturn, if_neg (by simp at hpolls; omega)]

/-- A run that goes on was not yet asked beyond its patience. -/
theorem polls_le {k : Nat} (h : Course (some k) trace first past r) (h₀ : first.polls ≤ k) :
    r.polls ≤ k := by
  induction h with
  | here => exact h₀
  | @turn past r s _ hs ih =>
      have hfree := Run.turn_none_of_goesOn hs
      rw [polls_succ hfree]
      cases hasks : asks r.phase s.phase with
      | false => exact ih
      | true =>
          obtain ⟨u, -, -, -, hturn⟩ := Run.turn_of_asks hfree hasks
          have hne : k ≠ r.polls := by
            intro he
            rw [hturn, if_pos he] at hs
            cases hs
          rw [if_pos rfl]
          omega

theorem exists_asked (h : Course none trace first past r) {k : Nat} (h₀ : first.polls ≤ k)
    (hk : k < r.polls) :
    ∃ newer m older, past = newer ++ m :: older ∧ m.before.polls = k ∧
      asks m.before.phase m.after.phase = true := by
  induction h with
  | here => omega
  | @turn past r s _ hs ih =>
      -- the turn is one of the earlier ones, or it is the last
      by_cases hr : k < r.polls
      · obtain ⟨newer, m, older, rfl, hm⟩ := ih hr
        exact ⟨⟨r, s⟩ :: newer, m, older, rfl, hm⟩
      · have hpolls := polls_succ hs
        have hasks : asks r.phase s.phase = true := by
          by_contra hno
          rw [if_neg hno] at hpolls
          omega
        rw [if_pos hasks] at hpolls
        exact ⟨[], ⟨r, s⟩, past, rfl, by show r.polls = k; omega, hasks⟩

theorem asked_after {newer older : List (Taken α n)} {m : Taken α n}
    (h : Course none trace first (newer ++ m :: older) r) :
    ∃ more, r.asked = more ++ m.after.asked := by
  induction newer generalizing r with
  | nil =>
      cases h with
      | turn => exact ⟨[], rfl⟩
  | cons k newer ih =>
      cases h with
      | @turn _ s _ h hs =>
          obtain ⟨more, hmore⟩ := ih h
          cases hasks : asks s.phase r.phase with
          | false => exact ⟨more, by rw [(Run.turn_of_not_asks hs hasks none).2, hmore]⟩
          | true =>
              obtain ⟨u, -, -, hasked, -⟩ := Run.turn_of_asks hs hasks
              exact ⟨u.state :: more, by rw [hasked, hmore]; rfl⟩

/-- Where its patience is at its end a run stops, and it has shown what the run that nobody stops
shows up to there. -/
theorem exists_stop (h : Course none trace first past r) {k : Nat} (h₀ : first.polls ≤ k)
    (hk : k < r.polls) :
    ∃ past' m u more, Course (some k) trace first past' m ∧ past'.length < past.length ∧
      m.turn (some k) trace = .ends .cancelled u ∧ m.asked.length = k ∧
      u.asked = u.state :: m.asked ∧ r.asked = more ++ u.asked := by
  obtain ⟨newer, m, older, rfl, hm, hasks⟩ := h.exists_asked h₀ hk
  obtain ⟨hbefore, hturn⟩ := h.before
  obtain ⟨u, -, hu, hshown, hstop⟩ := Run.turn_of_asks hturn hasks
  obtain ⟨more, hmore⟩ := h.asked_after
  refine ⟨older, m.before, u, more, hbefore.patient (Nat.le_of_eq hm), ?_, ?_, hm, ?_, ?_⟩
  · rw [List.length_append, List.length_cons]
    omega
  · rw [hstop, if_pos hm.symm]
  · rw [hu, hshown]
  · rw [hmore, hu]

theorem play_eq (h : Course patience trace first past r) {how : Ending} {s : Run α n}
    (hs : r.turn patience trace = .ends how s) {turns : Nat} (hlt : past.length < turns) :
    first.play patience trace turns = (how, s) := by
  -- the turns of the course are spent first
  have hspent : ∀ {past r}, Course patience trace first past r → ∀ turns,
      first.play patience trace (past.length + turns) = r.play patience trace turns := by
    intro past r h
    induction h with
    | here => intro turns; rw [List.length_nil, Nat.zero_add]
    | @turn past r s _ hs ih =>
        intro turns
        rw [List.length_cons, Nat.add_assoc, Nat.add_comm 1, ih, Run.play, hs]
  obtain ⟨rest, rfl⟩ : ∃ rest, turns = past.length + (rest + 1) :=
    ⟨turns - past.length - 1, by omega⟩
  rw [hspent h, Run.play, hs]

/-- A state that was shown is, once counted, a state of the run. -/
theorem of_mem_asked (h : Course none trace first past r) (hasked : first.asked = [])
    {s : State α n} (hs : s ∈ r.asked) :
    ∃ past' r', Course none trace first past' r' ∧ s.counted = r'.state := by
  have hmem : s.counted ∈ r.asked.map State.counted := List.mem_map_of_mem hs
  rw [h.asked_eq, hasked, List.map_nil, List.append_nil] at hmem
  obtain ⟨k, hk, hstate⟩ := List.mem_map.1 hmem
  obtain ⟨newer, older, rfl⟩ := List.append_of_mem (List.mem_filter.1 hk).1
  obtain ⟨hbefore, hturn⟩ := h.before
  exact ⟨_, _, hbefore.turn hturn, hstate.symm⟩

end Course
end Turns

/-! ## Solves -/

section Solves

variable [Zero α] [Add α] [Sub α] [LE α] [DecidableLE α] {scores : Grid α n n}
  {direction : Direction} {t : α} {trace : Bool}

theorem solve_of_play {patience : Option Nat} {how : Ending} {r : Run α n}
    (h : (begin scores direction t).play patience trace (turnLimit n patience) = (how, r)) :
    (solve scores direction t patience trace).ending = how ∧
      (solve scores direction t patience trace).run.state = r.state ∧
      (solve scores direction t patience trace).run.asked = r.asked := by
  unfold solve
  rw [h]
  dsimp only
  split <;> exact ⟨rfl, rfl, rfl⟩

/-- What a solve leaves behind is what the run that nobody stops comes by, up to the count of the
last turn. -/
theorem solve_reached (scores : Grid α n n) (direction : Direction) (t : α)
    (patience : Option Nat) (trace : Bool) :
    ∃ past r, Course none trace (begin scores direction t) past r ∧
      (solve scores direction t patience trace).run.asked = r.asked ∧
      ((solve scores direction t patience trace).run.state = r.state ∨
        (solve scores direction t patience trace).run.state.counted = r.state) := by
  cases hplay : (begin scores direction t).play patience trace (turnLimit n patience) with
  | mk how s =>
      obtain ⟨-, hstate, hasked⟩ := solve_of_play hplay
      rw [hstate, hasked]
      rcases Course.play_course _ (.here : Course patience trace _ [] _) hplay with
        ⟨-, past, h, -⟩ | ⟨past, r, h, hends⟩
      · exact ⟨_, _, h.unlimited, rfl, .inl rfl⟩
      · rcases Run.turn_ends_sound (h.sound (begin_sound scores direction t)) hends with
          ⟨-, -, rfl⟩ | ⟨rfl, -⟩
        · exact ⟨_, _, h.unlimited, rfl, .inl rfl⟩
        · obtain ⟨s', hs', -, hcounted, hasked'⟩ := Run.turn_cancelled hends
          exact ⟨_, _, h.unlimited.turn hs', hasked', .inr hcounted⟩

/-- A solve that may be stopped is the start of the one that nobody stops: it ends where the other
one is asked for the first time beyond its patience, in the state that this one shows there. -/
structure Interruptible (scores : Grid α n n) (direction : Direction) (t : α) (trace : Bool) :
    Prop where
  finished : (solve scores direction t none trace).ending = .finished
  polls : (solve scores direction t none trace).polls =
    (solve scores direction t none trace).run.state.augmentations +
      (solve scores direction t none trace).run.state.adjustments
  /-- Each state that is shown is, up to the count, the one at which the next search begins that
  does not go on with another one. -/
  asked : ∃ past last, Course none trace (begin scores direction t) past last ∧
    last.phase = .done ∧ (solve scores direction t none trace).run.state = last.state ∧
    (solve scores direction t none trace).snapshots.map State.counted =
      (past.reverse.filter Taken.opens).map fun k => k.after.state
  stopped : ∀ {k}, k < (solve scores direction t none trace).polls →
    (solve scores direction t (some k) trace).ending = .cancelled ∧
      (solve scores direction t (some k) trace).polls = k + 1 ∧
      (solve scores direction t none trace).snapshots[k]? =
        some (solve scores direction t (some k) trace).run.state ∧
      (solve scores direction t (some k) trace).snapshots =
        (solve scores direction t none trace).snapshots.take (k + 1)
  unstopped : ∀ {k}, (solve scores direction t none trace).polls ≤ k →
    solve scores direction t (some k) trace = solve scores direction t none trace

theorem interruptible_of_progress (hprog : Progresses none trace (begin scores direction t))
    (hinit : 1 ≤ (begin scores direction t).state.start.state.starCount) :
    Interruptible scores direction t trace := by
  have hfresh := begin_fresh scores direction t
  have hsound := begin_sound scores direction t
  obtain ⟨past, last, h, hend⟩ := Run.play_ends_sound none hfresh hsound hprog hinit
  have hlength := h.length_lt_turnLimit hfresh hsound hprog hinit
  have hlimit : ∀ k, turnLimit n none ≤ turnLimit n (some k) := fun k => Nat.le_add_right _ _
  rcases hend with ⟨hdone, hplay⟩ | ⟨hpat, -⟩
  · obtain ⟨hfinished, hstate, hasked⟩ := solve_of_play hplay
    have hpolls : (solve scores direction t none trace).polls = last.polls :=
      congrArg List.length hasked
    refine ⟨hfinished, ?_, ⟨past, last, h, hdone, hstate, ?_⟩, fun {k} hk => ?_, fun {k} hk => ?_⟩
    · rw [hpolls, hstate, h.polls_eq hfresh rfl, hdone]
      rfl
    · unfold Solved.snapshots
      rw [hasked, List.map_reverse, h.asked_eq, List.filter_reverse, List.map_reverse]
      simp [begin]
    -- the turn at which the patience is at its end
    · rw [hpolls] at hk
      obtain ⟨past', m, u, more, h', hlt, hends, hlen, hu, hmore⟩ :=
        h.exists_stop (Nat.zero_le k) hk
      have hturns : past'.length < turnLimit n (some k) :=
        (hlt.trans hlength).trans_le (hlimit k)
      obtain ⟨hcancelled, hstate', hasked'⟩ := solve_of_play (h'.play_eq hends hturns)
      have htaken : (u.state :: m.asked).reverse.length = k + 1 := by simp [hlen]
      refine ⟨hcancelled, ?_, ?_, ?_⟩
      · show List.length _ = k + 1
        rw [hasked', hu, List.length_cons, hlen]
      · unfold Solved.snapshots
        rw [hasked, hmore, hu, hstate']
        simp [hlen]
      · unfold Solved.snapshots
        rw [hasked, hasked', hmore, hu, List.reverse_append, List.take_left' htaken]
    -- beyond it the run that may be stopped is the other one
    · rw [hpolls] at hk
      have hends : last.turn (some k) trace = .ends .finished last := by
        unfold Run.turn
        rw [hdone]
      have hplay' := (h.patient hk).play_eq hends (Nat.lt_of_lt_of_le hlength (hlimit k))
      unfold solve
      rw [hplay, hplay']
  · cases hpat

end Solves
end OptimalAssignment.Hungarian
