import Mathlib.Tactic.Ring
import OptimalAssignment.Proofs.Hungarian.Phases

/-!
# How many turns a run takes

The stars never become fewer, between two flips every found zero covers one row more, and after an
adjustment the next search finds a zero.  So the turns are counted by the augmentations, the
adjustments and the repeated searches, and the size alone bounds all three.
-/

namespace OptimalAssignment.Hungarian

variable {α : Type} {n : Nat}

/-- The turns that lead to a phase, apart from augmentations, adjustments and repeated searches. -/
def Phase.turns : Phase n → Nat
  | .start => 0
  | .test => 1
  | .search => 2
  | .flip _ => 3
  | .adjust => 3
  | .done => 2

section Turns

variable [LE α] [DecidableLE α]

/-- The adjustments that no found zero has answered yet. -/
def spare : Phase n → State α n → Nat
  | .search, s => if s.openZero? = none then 0 else 1
  | .flip _, _ => 1
  | _, _ => 0

/-- The counters of a run after its first turn: the stars it began with and its repeated searches
are given. -/
structure Tally (initial repeated : Nat) (p : Phase n) (s : State α n) : Prop where
  started : p ≠ .start
  stars : s.augmentations + initial = s.starCount
  transitions : s.transitions = p.turns + 3 * s.augmentations + 2 * s.adjustments + repeated
  /-- While `k` lines are starred, each of at most `k` repeated searches covers a row. -/
  repeated_le : 2 * repeated + initial * (initial - 1) ≤
    s.starCount * (s.starCount - 1) + 2 * s.coveredRows.card
  adjustments_le : s.adjustments ≤ repeated + s.augmentations + spare p s

variable [Add α] [Sub α]

/-! ## Single turns -/

namespace State

/-- The cell of the least open entry becomes a zero. -/
theorem exists_openZero_shifted {s : State α n} {a : α} (h : s.leastOpen? = some a)
    (ha : a - a ≤ s.tolerance) : (s.shifted a).counted.openZero? ≠ none := by
  obtain ⟨i, j, hi, hj, hget⟩ := leastOpen?_mem h
  intro hnone
  apply openZero?_eq_none.1 hnone i j hi hj
  show (s.shift a).get i j ≤ s.tolerance
  rw [get_shift, if_neg hi, if_neg hj, hget]
  exact ha

end State

omit [LE α] [DecidableLE α] [Add α] [Sub α] in
theorem State.Settled.card_coveredRows {s : State α n} (h : s.Settled) :
    s.coveredRows.card = 0 := by
  rw [Finset.card_eq_zero, Finset.eq_empty_iff_forall_notMem]
  intro i hi
  exact h.no_row i (State.mem_coveredRows.1 hi)

theorem succ_mul_self (k : Nat) : (k + 1) * k = k * (k - 1) + 2 * k := by
  cases k with
  | zero => rfl
  | succ k =>
      rw [Nat.add_sub_cancel]
      ring

namespace Tally

variable {initial repeated : Nat} {s : State α n}

omit [Add α] [Sub α] in
/-- The found zero is worth nothing yet, and it still answers for the last adjustment. -/
theorem found (ht : Tally initial repeated .search s) (hs : s.Balanced none) {i j : Fin n}
    (h : s.openZero? = some (i, j)) :
    Tally initial repeated (.flip (i, j)) (s.primed i j).counted := by
  obtain ⟨-, hstars, hturns, hrep, hadj⟩ := ht
  obtain ⟨-, hr, hc⟩ := State.openZero?_some h
  have hcount : (s.primed i j).starCount = s.starCount := hs.starCount_primed hr hc
  refine ⟨by simp, ?_, ?_, ?_, ?_⟩
  · show s.augmentations + initial = (s.primed i j).starCount
    rw [hcount, hstars]
  · show s.transitions + 1 = 3 + 3 * s.augmentations + 2 * s.adjustments + repeated
    rw [hturns, Phase.turns]
    omega
  · show _ ≤ (s.primed i j).starCount * ((s.primed i j).starCount - 1) + 2 * s.coveredRows.card
    rw [hcount]
    exact hrep
  · rw [spare, if_neg (by simp [h])] at hadj
    exact hadj

omit [Add α] [Sub α] in
/-- A repeated search is paid for by the row that is covered. -/
theorem covered (ht : Tally initial repeated .search s) (hs : s.Balanced none) {i j : Fin n}
    (h : s.openZero? = some (i, j)) (k : Fin n) :
    Tally initial (repeated + 1) .search (s.moved i j k).counted := by
  obtain ⟨-, hstars, hturns, hrep, hadj⟩ := ht
  obtain ⟨-, hr, hc⟩ := State.openZero?_some h
  have hcount : (s.moved i j k).starCount = s.starCount := hs.starCount_primed hr hc
  have hrows : (s.moved i j k).coveredRows.card = s.coveredRows.card + 1 := by
    rw [State.coveredRows_moved, Finset.card_insert_of_notMem (by simpa using hr)]
  refine ⟨by simp, ?_, ?_, ?_, ?_⟩
  · show s.augmentations + initial = (s.moved i j k).starCount
    rw [hcount, hstars]
  · show s.transitions + 1 = 2 + 3 * s.augmentations + 2 * s.adjustments + (repeated + 1)
    rw [hturns, Phase.turns]
    omega
  · show 2 * (repeated + 1) + _ ≤ (s.moved i j k).starCount * ((s.moved i j k).starCount - 1) +
      2 * (s.moved i j k).coveredRows.card
    rw [hcount, hrows]
    omega
  · show s.adjustments ≤ repeated + 1 + s.augmentations + _
    rw [spare, if_neg (by simp [h])] at hadj
    omega

omit [Add α] [Sub α] in
/-- All rows are free again, and the new star is worth as many as could be covered. -/
theorem flipped {x : Cell n n} (ht : Tally initial repeated (.flip x) s)
    (hs : s.Balanced (some x)) : Tally initial repeated .test (s.flip x).state.counted := by
  obtain ⟨-, hstars, hturns, hrep, hadj⟩ := ht
  have hcount : (s.flip x).state.starCount = s.starCount + 1 := hs.starCount_flip
  have hrows : s.coveredRows.card ≤ s.starCount := hs.coveredRows_le
  refine ⟨by simp, ?_, ?_, ?_, ?_⟩
  · show s.augmentations + 1 + initial = (s.flip x).state.starCount
    omega
  · show s.transitions + 1 = 1 + 3 * (s.augmentations + 1) + 2 * s.adjustments + repeated
    rw [hturns, Phase.turns]
    omega
  · show 2 * repeated + _ ≤ (s.flip x).state.starCount *
      ((s.flip x).state.starCount - 1) + 2 * (s.flip x).state.coveredRows.card
    rw [hcount, Nat.add_sub_cancel, succ_mul_self]
    omega
  · show s.adjustments ≤ repeated + (s.augmentations + 1) + 0
    rw [spare] at hadj
    omega

/-- The zero that an adjustment makes is there for the next search. -/
theorem adjusted (ht : Tally initial repeated .adjust s) {a : α}
    (hzero : (s.shifted a).counted.openZero? ≠ none) :
    Tally initial repeated .search (s.shifted a).counted := by
  obtain ⟨-, hstars, hturns, hrep, hadj⟩ := ht
  refine ⟨by simp, hstars, ?_, hrep, ?_⟩
  · show s.transitions + 1 = 2 + 3 * s.augmentations + 2 * (s.adjustments + 1) + repeated
    rw [hturns, Phase.turns]
    omega
  · rw [spare, if_neg hzero]
    exact Nat.succ_le_succ hadj

end Tally

/-- One turn keeps the tally, provided that an adjustment makes a zero. -/
theorem Advance.tally {p q : Phase n} {s t : State α n} (h : Advance p s q t) (hs : Sound p s)
    (hprog : p = .adjust → t.openZero? ≠ none) {initial repeated : Nat}
    (ht : Tally initial repeated p s) :
    Tally initial (repeated + if p = .search ∧ q = .search then 1 else 0) q t := by
  cases h with
  | start => exact absurd rfl ht.started
  | finish h =>
      obtain ⟨-, hstars, hturns, hrep, hadj⟩ := ht
      refine ⟨by simp, hstars, ?_, hrep, hadj⟩
      show s.transitions + 1 = 2 + 3 * s.augmentations + 2 * s.adjustments + (repeated + 0)
      rw [hturns, Phase.turns]
      omega
  | resume h =>
      obtain ⟨-, hstars, hturns, hrep, hadj⟩ := ht
      refine ⟨by simp, hstars, ?_, hrep, Nat.le_trans hadj (Nat.le_add_right _ _)⟩
      show s.transitions + 1 = 2 + 3 * s.augmentations + 2 * s.adjustments + (repeated + 0)
      rw [hturns, Phase.turns]
      omega
  | exhausted h =>
      obtain ⟨-, hstars, hturns, hrep, hadj⟩ := ht
      refine ⟨by simp, hstars, ?_, hrep, ?_⟩
      · show s.transitions + 1 = 3 + 3 * s.augmentations + 2 * s.adjustments + (repeated + 0)
        rw [hturns, Phase.turns]
        omega
      -- nothing was found, so no adjustment was left without its zero
      · rw [spare, if_pos h] at hadj
        exact hadj
  | found h => exact ht.found hs.1 h
  | @covered _ _ _ k h => exact ht.covered hs.1 h k
  | flip => exact ht.flipped hs.1
  | adjust => exact ht.adjusted (hprog rfl)

/-! ## Whole courses -/

/-- Whatever a run adjusts by counts as a zero once it is taken from itself. -/
def Progresses (patience : Option Nat) (trace : Bool) (first : Run α n) : Prop :=
  ∀ {past r a}, Course patience trace first past r → r.phase = .adjust →
    r.state.leastOpen? = some a → a - a ≤ r.state.tolerance

namespace Course

variable {patience : Option Nat} {trace : Bool} {first r : Run α n} {past : List (Taken α n)}

theorem openZero?_after_adjust (hprog : Progresses patience trace first) {k : Taken α n}
    (h : Course patience trace first (k :: past) r) (hk : k.before.phase = .adjust) :
    r.phase = .search ∧ r.state.openZero? ≠ none := by
  cases h with
  | @turn _ s _ h hs =>
      have hadv := Run.advance_of_turn hs
      rw [show s.phase = .adjust from hk] at hadv
      obtain ⟨hsearch, a, ha, hr⟩ := hadv.of_adjust
      rw [hr]
      exact ⟨hsearch, State.exists_openZero_shifted ha (hprog h hk ha)⟩

/-- Since an adjustment a zero was found, or one is there to be found. -/
theorem found_since_adjust (hprog : Progresses patience trace first)
    {newer older : List (Taken α n)}
    {k : Taken α n} (h : Course patience trace first (newer ++ k :: older) r)
    (hk : k.before.phase = .adjust) :
    (∃ f ∈ newer, f.finds) ∨ (r.phase = .search ∧ r.state.openZero? ≠ none) := by
  induction newer generalizing r with
  | nil => exact .inr (h.openZero?_after_adjust hprog hk)
  | cons m newer ih =>
      cases h with
      | @turn _ s _ h hs =>
          rcases ih h with ⟨f, hf, hfinds⟩ | ⟨hsearch, hzero⟩
          · exact .inl ⟨f, List.mem_cons_of_mem _ hf, hfinds⟩
          · have hadv := Run.advance_of_turn hs
            rw [hsearch] at hadv
            exact .inl ⟨⟨s, r⟩, List.mem_cons_self, hsearch, hadv.ne_adjust hzero⟩

/-- Between two adjustments the search finds a zero. -/
theorem finds_between_adjusts (hprog : Progresses patience trace first)
    {newer between older : List (Taken α n)} {k m : Taken α n}
    (h : Course patience trace first (newer ++ m :: (between ++ k :: older)) r)
    (hk : k.before.phase = .adjust) (hm : m.before.phase = .adjust) :
    ∃ f ∈ between, f.finds := by
  rcases h.before.1.found_since_adjust hprog hk with hfound | ⟨hsearch, -⟩
  · exact hfound
  · rw [hm] at hsearch
    cases hsearch

end Course

/-- A run before its first turn. -/
structure Run.Fresh (r : Run α n) : Prop where
  phase : r.phase = .start
  augmentations : r.state.augmentations = 0
  adjustments : r.state.adjustments = 0
  transitions : r.state.transitions = 0

omit [Add α] [Sub α] in
theorem Tally.initial {s : State α n} (hA : s.augmentations = 0) (hT : s.adjustments = 0)
    (hN : s.transitions = 0) :
    Tally s.start.state.starCount 0 .test s.start.state.counted := by
  have hsame := s.sameEntries_start
  have hA' : s.start.state.augmentations = 0 := by rw [hsame]; exact hA
  have hT' : s.start.state.adjustments = 0 := by rw [hsame]; exact hT
  have hN' : s.start.state.transitions = 0 := by rw [hsame]; exact hN
  refine ⟨by simp, ?_, ?_, ?_, ?_⟩
  · show s.start.state.augmentations + _ = s.start.state.starCount
    rw [hA', Nat.zero_add]
  · show s.start.state.transitions + 1 =
      1 + 3 * s.start.state.augmentations + 2 * s.start.state.adjustments + 0
    rw [hA', hT', hN']
  · rw [Nat.mul_zero, Nat.zero_add]
    exact Nat.le_add_right _ _
  · show s.start.state.adjustments ≤ _
    rw [hT']
    exact Nat.zero_le _

namespace Course

variable {patience : Option Nat} {trace : Bool} {first r : Run α n} {past : List (Taken α n)}

theorem tally (h : Course patience trace first past r) (hfresh : first.Fresh)
    (hsound : Sound first.phase first.state) (hprog : Progresses patience trace first) :
    past = [] ∧ r = first ∨
      Tally first.state.start.state.starCount (repeats past) r.phase r.state := by
  induction h with
  | here => exact .inl ⟨rfl, rfl⟩
  | @turn past r s h hs ih =>
      right
      -- the first turn sets up the tally, and every other one keeps it
      have hadv := Run.advance_of_turn hs
      rw [repeats_cons]
      rcases ih with ⟨rfl, rfl⟩ | ih
      · rw [hfresh.phase] at hadv
        obtain ⟨htest, hstate⟩ := hadv.of_start
        rw [htest, hstate, if_neg (by simp)]
        exact .initial hfresh.augmentations hfresh.adjustments hfresh.transitions
      · have hzero : r.phase = .adjust → s.state.openZero? ≠ none := fun hr =>
          ((h.turn hs).openZero?_after_adjust hprog hr).2
        exact hadv.tally (h.sound hsound) hzero ih

theorem length_eq_transitions (h : Course patience trace first past r) (hfresh : first.Fresh) :
    past.length = r.state.transitions := by
  induction h with
  | here => rw [hfresh.transitions]; rfl
  | turn _ hs ih => rw [List.length_cons, ih, (Run.advance_of_turn hs).frame.1]

end Course

/-! ## Bounds by the size -/

namespace Tally

variable {initial repeated : Nat} {p : Phase n} {s : State α n}

omit [Add α] [Sub α] in
/-- Twice the repeated searches of all the numbers of stars up to the current one. -/
theorem searches_le (h : Sound p s) (hp : p ≠ .start) :
    s.starCount * (s.starCount - 1) + 2 * s.coveredRows.card ≤ n * (n - 1) := by
  have hsettled : s.Settled → s.starCount * (s.starCount - 1) + 2 * s.coveredRows.card ≤
      n * (n - 1) := by
    intro hs
    have hle : s.starCount ≤ n := hs.balanced.starCount_le
    rw [hs.card_coveredRows]
    exact Nat.mul_le_mul hle (Nat.sub_le_sub_right hle 1)
  have hrunning : ∀ c, s.Balanced c → s.starCount < n →
      s.starCount * (s.starCount - 1) + 2 * s.coveredRows.card ≤ n * (n - 1) := by
    intro c hs hlt
    have hrows : s.coveredRows.card ≤ s.starCount := hs.coveredRows_le
    have hmul : (s.starCount + 1) * s.starCount ≤ n * (n - 1) :=
      Nat.mul_le_mul hlt (Nat.le_sub_one_of_lt hlt)
    rw [succ_mul_self] at hmul
    omega
  cases p with
  | start => exact absurd rfl hp
  | test => exact hsettled h
  | search => exact hrunning none h.1 h.2
  | flip x => exact hrunning (some x) h.1 h.2
  | adjust => exact hrunning none h.1 h.2.1
  | done => exact hsettled h.1

omit [Add α] [Sub α] in
theorem repeated_le_size (ht : Tally initial repeated p s) (h : Sound p s) :
    2 * repeated ≤ n * (n - 1) := by
  have hsearches := searches_le h ht.started
  have hrep := ht.repeated_le
  omega

omit [Add α] [Sub α] in
/-- What is not due to repeated searches. -/
theorem turns_le (ht : Tally initial repeated p s) (h : Sound p s) (hinit : 1 ≤ initial) :
    p.turns + 2 * spare p s + 5 * s.augmentations ≤ 2 + 5 * (n - 1) := by
  have hstars := ht.stars
  cases p with
  | start => exact absurd rfl ht.started
  | test =>
      have hle : s.starCount ≤ n := h.balanced.starCount_le
      simp only [Phase.turns, spare]
      omega
  | search =>
      have hlt := h.2
      simp only [Phase.turns, spare]
      split <;> omega
  | flip x =>
      have hlt := h.2
      simp only [Phase.turns, spare]
      omega
  | adjust =>
      have hlt := h.2.1
      simp only [Phase.turns, spare]
      omega
  | done =>
      have hfull := h.2
      simp only [Phase.turns, spare]
      omega

omit [Add α] [Sub α] in
theorem transitions_le (ht : Tally initial repeated p s) (h : Sound p s) (hinit : 1 ≤ initial) :
    s.transitions ≤ 2 + (n - 1) * (3 * n + 10) / 2 := by
  have hturns := ht.transitions
  have hadj := ht.adjustments_le
  have hrest := ht.turns_le h hinit
  have hrep := ht.repeated_le_size h
  have hsize : (n - 1) * (3 * n + 10) = 3 * (n * (n - 1)) + 10 * (n - 1) := by ring
  omega

end Tally

end Turns
end OptimalAssignment.Hungarian
