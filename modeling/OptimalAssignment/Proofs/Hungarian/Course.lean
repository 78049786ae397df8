import OptimalAssignment.Hungarian.Run
import OptimalAssignment.Proofs.Hungarian.Marks

/-!
# Courses

A course is the part of a run that leads from one point to another, with the turns that were taken.
`Advance` says all that one turn can do to the phase and to the state; whatever every advance keeps
holds along every course.
-/

namespace OptimalAssignment.Hungarian

variable {α : Type} {n : Nat}

/-! ## What the stages leave behind -/

namespace State

def counted (s : State α n) : State α n :=
  { s with transitions := s.transitions + 1 }

def primed (s : State α n) (i j : Fin n) : State α n :=
  s.mark i j .prime

/-- A new prime in a row whose star stands in column `k`. -/
def moved (s : State α n) (i j k : Fin n) : State α n :=
  ((s.primed i j).coverColumn k false).coverRow i true

def shifted [Add α] [Sub α] (s : State α n) (amount : α) : State α n :=
  { s with
    working := s.shift amount
    adjustments := s.adjustments + 1
    lastAmount := some amount }

end State

/-! ## Single turns -/

section Turns

variable [Add α] [Sub α] [LE α] [DecidableLE α]

inductive Advance : Phase n → State α n → Phase n → State α n → Prop where
  | start (s : State α n) : Advance .start s .test s.start.state.counted
  | finish {s : State α n} (h : s.colCovered.all id = true) : Advance .test s .done s.counted
  | resume {s : State α n} (h : ¬s.colCovered.all id = true) : Advance .test s .search s.counted
  | exhausted {s : State α n} (h : s.openZero? = none) : Advance .search s .adjust s.counted
  | found {s : State α n} {i j : Fin n} (h : s.openZero? = some (i, j))
      (hi : (s.primed i j).starInRow? i = none) :
      Advance .search s (.flip (i, j)) (s.primed i j).counted
  | covered {s : State α n} {i j k : Fin n} (h : s.openZero? = some (i, j))
      (hi : (s.primed i j).starInRow? i = some k) :
      Advance .search s .search (s.moved i j k).counted
  | flip {s : State α n} {x : Cell n n} (h : (s.flip x).state.crowded? = none) :
      Advance (.flip x) s .test (s.flip x).state.counted
  | adjust {s : State α n} {a : α} (h : s.leastOpen? = some a) :
      Advance .adjust s .search (s.shifted a).counted

namespace Advance

variable {q : Phase n} {s t : State α n}

theorem of_start (h : Advance .start s q t) : q = .test ∧ t = s.start.state.counted := by
  cases h
  exact ⟨rfl, rfl⟩

theorem of_adjust (h : Advance .adjust s q t) :
    q = .search ∧ ∃ a, s.leastOpen? = some a ∧ t = (s.shifted a).counted := by
  cases h with
  | @adjust _ a ha => exact ⟨rfl, a, ha, rfl⟩

theorem ne_adjust (h : Advance .search s q t) (hz : s.openZero? ≠ none) : q ≠ .adjust := by
  rintro rfl
  cases h with
  | exhausted hnone => exact hz hnone

end Advance

namespace Run

omit [Add α] [Sub α] [LE α] [DecidableLE α] in
theorem goOn_goesOn {patience : Option Nat} {before : Phase n} {r s : Run α n}
    (h : goOn patience before r = .goesOn s) : s.phase = r.phase ∧ s.state = r.state.counted := by
  unfold goOn at h
  split at h
  · simp only [] at h
    split at h
    · cases h
    · cases h; exact ⟨rfl, rfl⟩
  · cases h; exact ⟨rfl, rfl⟩

omit [Add α] [Sub α] [LE α] [DecidableLE α] in
/-- A run is only stopped where it is asked, and then its state is not counted. -/
theorem goOn_ends {patience : Option Nat} {before : Phase n} {r s : Run α n} {how : Ending}
    (h : goOn patience before r = .ends how s) :
    how = .cancelled ∧ patience = some r.polls ∧ asks before r.phase = true ∧
      s.phase = r.phase ∧ s.state = r.state := by
  unfold goOn at h
  split at h
  · rename_i hasks
    simp only [] at h
    split at h
    · rename_i hp
      cases h; exact ⟨rfl, hp, hasks, rfl, rfl⟩
    · cases h
  · cases h

theorem advance_of_turn {patience : Option Nat} {trace : Bool} {r s : Run α n}
    (h : r.turn patience trace = .goesOn s) : Advance r.phase r.state s.phase s.state := by
  -- one case for each phase, in the order of their declaration from `done` and `start` on
  unfold turn at h
  split at h
  case h_1 => cases h
  case h_2 hr =>
    obtain ⟨hp, hs⟩ := goOn_goesOn h
    rw [hp, hs, hr]; exact .start _
  case h_3 hr =>
    obtain ⟨hp, hs⟩ := goOn_goesOn h
    rw [hp, hs, hr]
    simp only [move, State.test]
    split
    · rename_i hall
      exact .finish hall
    · rename_i hall
      exact .resume hall
  case h_4 hr =>
    obtain ⟨hp, hs⟩ := goOn_goesOn h
    rw [hp, hs, hr]
    have hstate : (if trace then r.report .searching else r).state = r.state := by
      cases trace <;> rfl
    simp only [move, hstate, State.search]
    split
    · rename_i hz
      exact .exhausted hz
    · rename_i i j hz
      split
      · rename_i hi
        exact .found hz hi
      · rename_i k hi
        exact .covered hz hi
  case h_5 x hr =>
    simp only [] at h
    split at h
    · cases h
    · rename_i hc
      obtain ⟨hp, hs⟩ := goOn_goesOn h
      rw [hp, hs, hr]; exact .flip hc
  case h_6 hr =>
    split at h
    · rename_i m hm
      obtain ⟨hp, hs⟩ := goOn_goesOn h
      obtain ⟨a, ha, rfl⟩ := Option.map_eq_some_iff.1 hm
      rw [hp, hs, hr]; exact .adjust ha
    · cases h

/-- All the ways in which a turn ends a run. -/
theorem turn_ends {patience : Option Nat} {trace : Bool} {r s : Run α n} {how : Ending}
    (h : r.turn patience trace = .ends how s) :
    (how = .finished ∧ r.phase = .done ∧ s = r) ∨
    (how = .cancelled ∧ patience = some r.polls) ∨
    (∃ x line, how = .failed (.crowded line) ∧ r.phase = .flip x ∧
      (r.state.flip x).state.crowded? = some line) ∨
    (how = .failed .allCovered ∧ r.phase = .adjust ∧ r.state.leastOpen? = none) := by
  -- a stage that goes on is only stopped by being asked
  have hstop : ∀ {before : Phase n} {t : Run α n}, goOn patience before t = .ends how s →
      t.polls = r.polls → how = .cancelled ∧ patience = some r.polls :=
    fun hends hpolls => ⟨(goOn_ends hends).1, hpolls ▸ (goOn_ends hends).2.1⟩
  unfold turn at h
  split at h
  case h_1 hr => cases h; exact .inl ⟨rfl, hr, rfl⟩
  case h_2 => exact .inr (.inl (hstop h rfl))
  case h_3 => exact .inr (.inl (hstop h rfl))
  case h_4 => exact .inr (.inl (hstop h (by cases trace <;> rfl)))
  case h_5 x hr =>
    simp only [] at h
    split at h
    · rename_i line hline
      cases h; exact .inr (.inr (.inl ⟨x, line, rfl, hr, hline⟩))
    · exact .inr (.inl (hstop h rfl))
  case h_6 hr =>
    split at h
    · exact .inr (.inl (hstop h rfl))
    · rename_i hm
      cases h
      exact .inr (.inr (.inr ⟨rfl, hr, by simpa [State.adjust?] using hm⟩))

end Run

/-! ## Courses -/

/-- A turn that was taken. -/
structure Taken (α : Type) (n : Nat) where
  before : Run α n
  after : Run α n

/-- The run comes from `first` to a later point by the turns listed, the newest first. -/
inductive Course (patience : Option Nat) (trace : Bool) (first : Run α n) :
    List (Taken α n) → Run α n → Prop where
  | here : Course patience trace first [] first
  | turn {past : List (Taken α n)} {r s : Run α n} (h : Course patience trace first past r)
      (hs : r.turn patience trace = .goesOn s) : Course patience trace first (⟨r, s⟩ :: past) s

namespace Course

variable {patience : Option Nat} {trace : Bool} {first r : Run α n} {past : List (Taken α n)}

/-- A course leads to each of its turns. -/
theorem before {newer older : List (Taken α n)} {k : Taken α n}
    (h : Course patience trace first (newer ++ k :: older) r) :
    Course patience trace first older k.before ∧
      k.before.turn patience trace = .goesOn k.after := by
  induction newer generalizing r with
  | nil =>
      cases h with
      | turn h hs => exact ⟨h, hs⟩
  | cons m newer ih =>
      cases h with
      | turn h _ => exact ih h

/-- Where a run stands after some turns. -/
theorem play_course (turns : Nat) (h : Course patience trace first past r) {how : Ending}
    {s : Run α n} (hs : r.play patience trace turns = (how, s)) :
    (how = .unfinished ∧
      ∃ more, Course patience trace first (more ++ past) s ∧ more.length = turns) ∨
    ∃ past' r', Course patience trace first past' r' ∧
      r'.turn patience trace = .ends how s := by
  induction turns generalizing past r with
  | zero =>
      cases hs
      exact .inl ⟨rfl, [], h, rfl⟩
  | succ turns ih =>
      rw [Run.play] at hs
      split at hs
      · rename_i t ht
        rcases ih (h.turn ht) hs with ⟨hhow, more, hmore, hlen⟩ | hend
        · refine .inl ⟨hhow, more ++ [⟨r, t⟩], by simpa using hmore, by simp [hlen]⟩
        · exact .inr hend
      · rename_i ending t ht
        cases hs
        exact .inr ⟨past, r, h, ht⟩

/-- A run ends if its courses are not as long as the turns it has. -/
theorem play_ends {turns : Nat}
    (hlimit : ∀ {past r}, Course patience trace first past r → past.length < turns) :
    ∃ past r, Course patience trace first past r ∧
      r.turn patience trace = .ends (first.play patience trace turns).1
        (first.play patience trace turns).2 := by
  rcases play_course turns (.here : Course patience trace first [] first) rfl with
    ⟨-, more, hmore, hlen⟩ | hend
  · have := hlimit hmore
    simp [hlen] at this
  · exact hend

end Course

end Turns

/-! ## Counting turns -/

/-- The search found a zero in a row with a star. -/
def Taken.repeats (k : Taken α n) : Bool :=
  k.before.phase == .search && k.after.phase == .search

/-- The search found a zero. -/
def Taken.finds (k : Taken α n) : Prop :=
  k.before.phase = .search ∧ k.after.phase ≠ .adjust

def repeats (past : List (Taken α n)) : Nat :=
  past.countP Taken.repeats

theorem repeats_cons (r s : Run α n) (past : List (Taken α n)) :
    repeats (⟨r, s⟩ :: past) =
      repeats past + if r.phase = .search ∧ s.phase = .search then 1 else 0 := by
  unfold repeats
  rw [List.countP_cons]
  simp [Taken.repeats]

end OptimalAssignment.Hungarian
