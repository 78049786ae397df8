import OptimalAssignment.Proofs.Hungarian.Termination

/-!
# Augmentations

What a flip makes of the state in which a run comes to it.  A run reaches it with a balanced state,
whatever its entries and their arithmetic are, so the chain ends in a column without a star.
-/

namespace OptimalAssignment.Hungarian

variable {α : Type} {n : Nat}

/-- One star more, in the row of the cell and in one other free column; the lines that held a star
keep one, and only primes became stars. -/
structure Augmented (x : Cell n n) (s t : State α n) : Prop where
  starCount : t.starCount = s.starCount + 1
  row_free : ∀ j, ¬s.StarAt x.1 j
  rows : ∀ i, (∃ j, t.StarAt i j) ↔ i = x.1 ∨ ∃ j, s.StarAt i j
  cols : ∃ l, (∀ i, ¬s.StarAt i l) ∧ ∀ j, (∃ i, t.StarAt i j) ↔ j = l ∨ ∃ i, s.StarAt i j
  new_star : ∀ {i j}, t.StarAt i j → ¬s.StarAt i j → s.PrimeAt i j
  settled : t.Settled
  frame : t = { s with
    marks := t.marks
    rowCovered := t.rowCovered
    colCovered := t.colCovered
    augmentations := s.augmentations + 1 }

theorem State.Balanced.augmented {s : State α n} {x : Cell n n} (h : s.Balanced (some x)) :
    Augmented x s (s.flip x).state where
  starCount := h.starCount_flip
  row_free := (h.carried_prime rfl).2.2
  rows i := by
    rw [← State.mem_starredRows, h.starredRows_flip, Finset.mem_insert, State.mem_starredRows]
  cols := by
    obtain ⟨l, hl, hcols⟩ := h.starredCols_flip
    refine ⟨l, hl, fun j => ?_⟩
    rw [← State.mem_starredCols, hcols, Finset.mem_insert, State.mem_starredCols]
  new_star {i j} hnew hold := by
    rcases (State.starAt_flip s x i j).1 hnew with ⟨hs, -⟩ | ⟨hp, -⟩
    · exact absurd hs hold
    · exact hp
  settled := h.settled_flip
  frame := rfl

section Runs

variable [Add α] [Sub α] [LE α] [DecidableLE α]

/-- After a flip that leaves no line crowded a run goes on to the test, without being asked. -/
theorem Run.turn_flip {patience : Option Nat} {trace : Bool} {r : Run α n} {x : Cell n n}
    (hx : r.phase = .flip x) (hcrowded : (r.state.flip x).state.crowded? = none) :
    ∃ s, r.turn patience trace = .goesOn s ∧ s.phase = .test ∧
      s.state = (r.state.flip x).state.counted := by
  unfold Run.turn
  rw [hx]
  simp only []
  rw [show (r.move (r.state.flip x)).state.crowded? = none from hcrowded]
  exact ⟨_, rfl, rfl, rfl⟩

/-- A run that is not at its end after some turns has come to where it stands. -/
theorem Course.of_unfinished {patience : Option Nat} {trace : Bool} {first : Run α n} {turns : Nat}
    (h : (first.play patience trace turns).1 = .unfinished) :
    ∃ past, Course patience trace first past (first.play patience trace turns).2 := by
  rcases Course.play_course turns (.here : Course patience trace first [] first) rfl with
    ⟨-, more, hmore, -⟩ | ⟨past, r, -, hends⟩
  · exact ⟨_, hmore⟩
  · rw [h] at hends
    rcases Run.turn_ends hends with ⟨hhow, -⟩ | ⟨hhow, -⟩ | ⟨_, _, hhow, -⟩ | ⟨hhow, -⟩ <;> cases hhow

end Runs

/-- Whenever a run comes to a flip, the flip adds one star and takes no line its star, and the run
goes on to the test with what it leaves behind. -/
theorem every_flip_augments {α : Type} [Zero α] [Add α] [Sub α] [LE α] [DecidableLE α] {n : Nat}
    (scores : Grid α n n) (direction : Direction) (t : α) (patience : Option Nat) (trace : Bool)
    {past : List (Taken α n)} {r : Run α n} {x : Cell n n}
    (h : Course patience trace (begin scores direction t) past r) (hx : r.phase = .flip x) :
    Augmented x r.state (r.state.flip x).state ∧
      ∃ s, r.turn patience trace = .goesOn s ∧ s.phase = .test ∧
        s.state = (r.state.flip x).state.counted := by
  have hsound := h.sound (begin_sound scores direction t)
  rw [hx] at hsound
  exact ⟨hsound.1.augmented, Run.turn_flip hx hsound.1.settled_flip.crowded?_eq_none⟩

/-- Two rows that are both best matched with the first column. -/
def contestedScores : Grid Nat 2 2 := ⟨#v[#v[1, 2], #v[1, 3]]⟩

/-- The flip takes the star from the first row's first column and sets two others. -/
theorem every_flip_augments_contested :
    ∃ past r, Course none false (begin contestedScores .minimize 0) past r ∧
      r.phase = .flip (1, 0) ∧ r.state.StarAt 0 0 ∧ ¬(r.state.flip (1, 0)).state.StarAt 0 0 ∧
      Augmented (1, 0) r.state (r.state.flip (1, 0)).state := by
  have hcourse : ((begin contestedScores .minimize 0).play none false 4).1 = .unfinished := by
    decide +kernel
  obtain ⟨past, h⟩ := Course.of_unfinished hcourse
  have hx : ((begin contestedScores .minimize 0).play none false 4).2.phase = .flip (1, 0) := by
    decide +kernel
  exact ⟨past, _, h, hx, by decide +kernel, by decide +kernel,
    (every_flip_augments _ _ _ _ _ h hx).1⟩

end OptimalAssignment.Hungarian
