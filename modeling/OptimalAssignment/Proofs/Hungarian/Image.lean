import OptimalAssignment.Proofs.Hungarian.Polls

/-!
# Images of runs

A map of the entries takes states and runs to states and runs.  Where the order of the entries shows
in their images, and what counts as a zero too, every stage but the adjustment does the same to
both.  If an adjustment also does, a run and its image take the same turns.
-/

namespace OptimalAssignment.Hungarian

variable {α β : Type} {n : Nat}

/-! ## Images -/

/-- The image has a tolerance of its own. -/
def State.map (f : α → β) (t : β) (s : State α n) : State β n where
  working := s.working.map f
  tolerance := t
  marks := s.marks
  rowCovered := s.rowCovered
  colCovered := s.colCovered
  augmentations := s.augmentations
  adjustments := s.adjustments
  transitions := s.transitions
  lastAmount := s.lastAmount.map f

def Event.map (f : α → β) : Event α → Event β
  | .solving size direction => .solving size direction
  | .starred stars size => .starred stars size
  | .searching => .searching
  | .augmented cells row col stars size => .augmented cells row col stars size
  | .adjusted amount => .adjusted (f amount)
  | .crowded line => .crowded line
  | .cancelled => .cancelled
  | .solved size cost augmentations adjustments => .solved size (f cost) augmentations adjustments

def Moved.map (f : α → β) (t : β) (m : Moved α n) : Moved β n :=
  ⟨m.state.map f t, m.phase, m.events.map (Event.map f)⟩

def Run.map (f : α → β) (t : β) (r : Run α n) : Run β n where
  state := r.state.map f t
  phase := r.phase
  events := r.events.map (Event.map f)
  asked := r.asked.map (State.map f t)

def Turn.map (f : α → β) (t : β) : Turn α n → Turn β n
  | .goesOn r => .goesOn (r.map f t)
  | .ends how r => .ends how (r.map f t)

def Taken.map (f : α → β) (t : β) (k : Taken α n) : Taken β n :=
  ⟨k.before.map f t, k.after.map f t⟩

variable {f : α → β} {t : β}

/-! ## Chains -/

namespace Walk

theorem finish_map (s : State α n) (w : Walk n) : w.finish (s.map f t) = w.finish s := by
  -- each round only looks at the marks, which are the same
  induction w using Walk.finish.induct s with
  | case1 w cells h =>
      have h' : w.round (s.map f t) = .stopped cells := h
      rw [finish_of_stopped h, finish_of_stopped h']
  | case2 w v h ih =>
      have h' : w.round (s.map f t) = .continued v := h
      rw [finish_of_continued h, finish_of_continued h', ih]

end Walk

/-! ## Stages -/

namespace State

theorem chain_map (s : State α n) (x : Cell n n) : (s.map f t).chain x = s.chain x :=
  Walk.finish_map s _

theorem flip_map (s : State α n) (x : Cell n n) :
    (s.map f t).flip x = (s.flip x).map f t := by
  unfold flip flipFrom
  rw [chain_map]
  rfl

theorem test_map (s : State α n) : (s.map f t).test = s.test.map f t :=
  rfl

variable [LE α] [DecidableLE α] [LE β] [DecidableLE β]

/-- What counts as a zero shows in the images, and so does the order of the entries. -/
structure Reads (f : α → β) (t : β) (s : State α n) : Prop where
  ordered : s.working.OrderedBy f
  zero : ∀ i j, f (s.working.get i j) ≤ t ↔ s.working.get i j ≤ s.tolerance

namespace Reads

variable {s u : State α n}

omit [DecidableLE α] [DecidableLE β] in
theorem of_sameEntries (h : s.Reads f t) (hsame : s.SameEntries u) : u.Reads f t := by
  rw [hsame]
  exact ⟨h.ordered, h.zero⟩

theorem isZero_map (h : s.Reads f t) (i j : Fin n) : (s.map f t).isZero i j = s.isZero i j := by
  have hget : (s.map f t).working.get i j = f (s.working.get i j) := Grid.get_map _ _ _ _
  rw [Bool.eq_iff_iff, isZero_iff, isZero_iff, hget]
  exact h.zero i j

theorem starRow_map (h : s.Reads f t) (i : Fin n) :
    (s.map f t).starRow i = (s.starRow i).map f t := by
  have hfree : (s.map f t).freeZero? i = s.freeZero? i := by
    unfold freeZero?
    simp only [h.isZero_map]
    rfl
  unfold starRow
  rw [hfree]
  show (if s.rowCovered.get i then _ else _) = _
  split
  · rfl
  · split <;> rfl

theorem foldl_starRow_map (h : s.Reads f t) (rows : List (Fin n)) :
    rows.foldl starRow (s.map f t) = (rows.foldl starRow s).map f t := by
  induction rows generalizing s with
  | nil => rfl
  | cons i rows ih =>
      rw [List.foldl_cons, List.foldl_cons, h.starRow_map]
      exact ih (h.of_sameEntries (s.sameEntries_starRow i))

theorem start_map (h : s.Reads f t) : (s.map f t).start = s.start.map f t := by
  unfold start
  rw [h.foldl_starRow_map]
  rfl

theorem search_map (h : s.Reads f t) : (s.map f t).search = s.search.map f t := by
  have hopen : (s.map f t).openZero? = s.openZero? := by
    unfold openZero?
    simp only [h.isZero_map]
    rfl
  unfold search
  rw [hopen]
  split
  · rfl
  · rename_i i j _
    have hstar : ((s.map f t).mark i j .prime).starInRow? i = (s.mark i j .prime).starInRow? i :=
      rfl
    simp only []
    rw [hstar]
    split <;> rfl

theorem leastOpen?_map (h : s.Reads f t) : (s.map f t).leastOpen? = s.leastOpen?.map f := by
  have hentries : (s.map f t).openCells.map (s.map f t).working.entry =
      (s.openCells.map s.working.entry).map f := by
    rw [List.map_map]
    exact List.map_congr_left fun x _ => Grid.get_map _ _ _ _
  unfold leastOpen?
  rw [hentries]
  apply leastOf?_map
  intro a ha b hb
  obtain ⟨x, -, rfl⟩ := List.mem_map.1 ha
  obtain ⟨y, -, rfl⟩ := List.mem_map.1 hb
  exact h.ordered x.1 x.2 y.1 y.2

variable [Add α] [Sub α] [Add β] [Sub β]

theorem adjust?_map (h : s.Reads f t)
    (hshift : ∀ a, s.leastOpen? = some a → (s.map f t).shift (f a) = (s.shift a).map f) :
    (s.map f t).adjust? = s.adjust?.map (Moved.map f t) := by
  unfold adjust?
  rw [h.leastOpen?_map]
  cases ha : s.leastOpen? with
  | none => rfl
  | some a =>
      simp only [Option.map_some]
      rw [hshift a ha]
      rfl

end Reads
end State

/-! ## Turns -/

namespace Run

theorem goOn_map (patience : Option Nat) (before : Phase n) (r : Run α n) :
    goOn patience before (r.map f t) = (goOn patience before r).map f t := by
  have hpolls : (r.map f t).polls = r.polls := List.length_map _
  unfold goOn
  show (if asks before r.phase then _ else _) = _
  split
  · simp only []
    rw [hpolls]
    split <;> rfl
  · rfl

theorem move_map (r : Run α n) (m : Moved α n) :
    (r.map f t).move (m.map f t) = (r.move m).map f t := by
  unfold move map Moved.map
  simp only [List.map_append, List.map_reverse]

variable [LE α] [DecidableLE α] [LE β] [DecidableLE β] [Add α] [Sub α] [Add β] [Sub β]

/-- The entries can be told by their images, also once they are adjusted. -/
structure Faithful (f : α → β) (t : β) (r : Run α n) : Prop where
  reads : r.state.Reads f t
  shift : r.phase = .adjust → ∀ {a}, r.state.leastOpen? = some a →
    (r.state.map f t).shift (f a) = (r.state.shift a).map f

theorem Faithful.turn_map {r : Run α n} (h : r.Faithful f t) (patience : Option Nat)
    (trace : Bool) : (r.map f t).turn patience trace = (r.turn patience trace).map f t := by
  have hphase : (r.map f t).phase = r.phase := rfl
  unfold turn
  rw [hphase]
  cases hp : r.phase with
  | done => rfl
  | start =>
      show goOn patience .start ((r.map f t).move (r.state.map f t).start) = _
      rw [h.reads.start_map, move_map, goOn_map]
  | test =>
      show goOn patience .test ((r.map f t).move (r.state.map f t).test) = _
      rw [State.test_map, move_map, goOn_map]
  | search =>
      -- the event that a trace adds first does not touch the state
      have hnoted : (if trace then (r.map f t).report .searching else r.map f t) =
          (if trace then r.report .searching else r).map f t := by
        cases trace <;> rfl
      have hstate : (if trace then r.report .searching else r).state = r.state := by
        cases trace <;> rfl
      simp only []
      rw [hnoted]
      show goOn patience .search (Run.move _ (State.map f t _).search) = _
      rw [hstate, h.reads.search_map, move_map, goOn_map]
  | flip x =>
      have hmoved : (r.map f t).move ((r.map f t).state.flip x) =
          (r.move (r.state.flip x)).map f t := by
        rw [← move_map, ← State.flip_map]
        rfl
      simp only []
      rw [hmoved]
      generalize r.move (r.state.flip x) = m
      -- whether a line has two stars is seen from the marks alone
      have hcrowded : (m.map f t).state.crowded? = m.state.crowded? := rfl
      rw [hcrowded]
      cases m.state.crowded? with
      | some line => rfl
      | none => exact goOn_map _ _ _
  | adjust =>
      have hadjust : (r.map f t).state.adjust? = r.state.adjust?.map (Moved.map f t) :=
        h.reads.adjust?_map fun a ha => h.shift hp ha
      dsimp only
      rw [hadjust]
      cases r.state.adjust? with
      | none => rfl
      | some m =>
          simp only [Option.map_some]
          rw [move_map, goOn_map]

end Run

/-! ## Courses -/

section Courses

variable [LE α] [DecidableLE α] [LE β] [DecidableLE β] [Add α] [Sub α] [Add β] [Sub β]
  {patience : Option Nat} {trace : Bool} {first r : Run α n} {past : List (Taken α n)}

/-- The run is faithful at every point that it comes to. -/
def Run.AlwaysFaithful (f : α → β) (t : β) (patience : Option Nat) (trace : Bool)
    (first : Run α n) : Prop :=
  ∀ {past r}, Course patience trace first past r → r.Faithful f t

namespace Course

variable (hfaith : first.AlwaysFaithful f t patience trace)

include hfaith

theorem map (h : Course patience trace first past r) :
    Course patience trace (first.map f t) (past.map (Taken.map f t)) (r.map f t) := by
  induction h with
  | here => exact .here
  | @turn past r s h hs ih =>
      refine ih.turn ?_
      rw [(hfaith h).turn_map, hs]
      rfl

theorem of_map {past : List (Taken β n)} {r : Run β n}
    (h : Course patience trace (first.map f t) past r) :
    ∃ past' r', Course patience trace first past' r' ∧ past = past'.map (Taken.map f t) ∧
      r = r'.map f t := by
  induction h with
  | here => exact ⟨[], first, .here, rfl, rfl⟩
  | @turn past r s _ hs ih =>
      -- the turn of the image is the image of a turn, so the run does not end here either
      obtain ⟨past', r', h', rfl, rfl⟩ := ih
      rw [(hfaith h').turn_map] at hs
      cases hturn : r'.turn patience trace with
      | goesOn s' =>
          rw [hturn] at hs
          cases hs
          exact ⟨⟨r', s'⟩ :: past', s', h'.turn hturn, rfl, rfl⟩
      | ends how s' =>
          rw [hturn] at hs
          cases hs

theorem play_map (h : Course patience trace first past r) (turns : Nat) :
    (r.map f t).play patience trace turns =
      ((r.play patience trace turns).1, (r.play patience trace turns).2.map f t) := by
  induction turns generalizing past r with
  | zero => rfl
  | succ turns ih =>
      rw [Run.play, Run.play, (hfaith h).turn_map]
      cases hturn : r.turn patience trace with
      | goesOn s => exact ih (h.turn hturn)
      | ends how s => rfl

end Course
end Courses

/-! ## Solves -/

/-- The solves end alike, with a state and its image. -/
structure Solved.Mirrors (f : α → β) (t : β) (solved : Solved α n) (image : Solved β n) :
    Prop where
  ending : image.ending = solved.ending
  state : image.run.state = solved.run.state.map f t
  snapshots : image.snapshots = solved.snapshots.map (State.map f t)
  matrix : image.matching.matrix = solved.matching.matrix

section Solves

variable [Zero α] [Add α] [Sub α] [LE α] [DecidableLE α]
  [Zero β] [Add β] [Sub β] [LE β] [DecidableLE β]
  {scores : Grid α n n} {direction : Direction} {s : α}

omit [Add α] [Add β] in
theorem begin_map (h : (scores.map f).normalize direction = (scores.normalize direction).map f) :
    begin (scores.map f) direction t = (begin scores direction s).map f t := by
  unfold begin
  rw [h]
  rfl

theorem solve_mirrors {patience : Option Nat} {trace : Bool}
    (h : (scores.map f).normalize direction = (scores.normalize direction).map f)
    (hfaith : (begin scores direction s).AlwaysFaithful f t patience trace) :
    (solve scores direction s patience trace).Mirrors f t
      (solve (scores.map f) direction t patience trace) := by
  have hplay := Course.play_map hfaith .here (turnLimit n patience)
  rw [← begin_map h] at hplay
  cases hrun : (begin scores direction s).play patience trace (turnLimit n patience) with
  | mk how r =>
      rw [hrun] at hplay
      dsimp only at hplay
      obtain ⟨hending, hstate, hasked⟩ := solve_of_play hrun
      obtain ⟨hending', hstate', hasked'⟩ := solve_of_play hplay
      refine ⟨by rw [hending, hending'], by rw [hstate, hstate']; rfl, ?_, ?_⟩
      · unfold Solved.snapshots
        rw [hasked, hasked', List.map_reverse]
        rfl
      · unfold solve
        rw [hplay, hrun]
        rfl

end Solves
end OptimalAssignment.Hungarian
