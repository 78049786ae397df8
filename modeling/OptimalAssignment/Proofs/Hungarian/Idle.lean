import OptimalAssignment.Proofs.Binary.Order
import OptimalAssignment.Proofs.Binary.Whole
import OptimalAssignment.Proofs.Solver

/-!
# Runs without zeros

With a tolerance that is negative or not a number no entry counts as zero.  Nothing is marked or
covered then: the search finds nothing, and the least entry, by which the adjustment moves all the
others, is a zero.  Such a run goes from the search to the adjustment and back for as long as it is
let, and nothing but the counters changes.
-/

namespace OptimalAssignment

open Binary

/-- Taking a zero from an unsigned double changes at most the sign of a zero. -/
theorem Binary.magnitude_sub_zero {x y : Float} (hx : 0 ≤ x) (hfin : x.isFinite = true)
    (hy : 0 ≤ y) (hzero : magnitude y = 0) : magnitude (x - y) = magnitude x := by
  rw [isFinite_iff hx] at hfin
  have hresult := sub_result hx hy hfin (hzero ▸ Nat.zero_le _)
  rw [hzero, Nat.sub_zero] at hresult
  exact hresult.magnitude_eq ⟨hfin, exists_canonical hx hfin⟩

/-- Below zero and beside the numbers there is no unsigned double. -/
theorem Binary.not_le_of_unsigned {x t : Float} (ht : t < 0 ∨ t.isNaN = true) (hx : 0 ≤ x) :
    ¬x ≤ t := by
  intro hle
  have hunsigned := zero_le_of_le hx hle
  rcases ht with hneg | hnan
  · exact Binary.not_lt_zero hunsigned hneg
  · rw [(rank_of_unsigned hunsigned).1] at hnan
    cases hnan

/-- Entries that are equal as numbers; zeros are, whatever their signs. -/
def Grid.SameNumbers {r c : Nat} (g h : Grid Float r c) : Prop :=
  ∀ i j, (g.get i j == h.get i j) = true

namespace Hungarian

variable {n : Nat}

/-! ## Stages that find nothing -/

section Stages

variable {α : Type} [LE α] [DecidableLE α] {s : State α n}

theorem State.start_of_no_zero (h : ∀ i j, s.isZero i j = false) :
    s.start.state = s.uncoverRows := by
  have hrow : ∀ i, s.starRow i = s := by
    intro i
    rcases s.starRow_cases i with ⟨hsame, -⟩ | ⟨j, -, -, -, hzero⟩
    · exact hsame
    · rw [h] at hzero
      cases hzero
  have hrows : ∀ rows : List (Fin n), rows.foldl State.starRow s = s := by
    intro rows
    induction rows with
    | nil => rfl
    | cons i rows ih => rw [List.foldl_cons, hrow, ih]
  show ((List.finRange n).foldl State.starRow s).uncoverRows = _
  rw [hrows]

end Stages

/-! ## Idle states -/

/-- How many turns a run without zeros has taken when it comes to a phase. -/
inductive Paced : Phase n → (adjustments turns : Nat) → Prop where
  | start : Paced .start 0 0
  | test : Paced .test 0 1
  | search (k : Nat) : Paced .search k (2 * k + 2)
  | adjust (k : Nat) : Paced .adjust k (2 * k + 3)

namespace Paced

variable {k m : Nat}

theorem started (h : Paced (.start : Phase n) k m) : Paced (.test : Phase n) k (m + 1) := by
  cases h
  exact .test

theorem tested (h : Paced (.test : Phase n) k m) : Paced (.search : Phase n) k (m + 1) := by
  cases h
  exact .search 0

theorem searched (h : Paced (.search : Phase n) k m) : Paced (.adjust : Phase n) k (m + 1) := by
  cases h
  exact .adjust k

theorem adjusted (h : Paced (.adjust : Phase n) k m) :
    Paced (.search : Phase n) (k + 1) (m + 1) := by
  cases h
  exact .search (k + 1)

theorem turns_eq (h : Paced (.search : Phase n) k m) : m = 2 * k + 2 := by
  cases h
  rfl

theorem turns_le {p : Phase n} (h : Paced p k m) : m ≤ 2 * k + 3 := by
  cases h <;> omega

end Paced

/-- Nothing is marked or covered, and the entries are still those of the beginning. -/
structure Idle (initial : Grid Float n n) (p : Phase n) (s : State Float n) : Prop where
  blank : ∀ i j, s.marks.get i j = .blank
  rows : ∀ i, ¬s.RowCovered i
  cols : ∀ j, ¬s.ColCovered j
  proper : s.working.Proper
  kept : ∀ i j, magnitude (s.working.get i j) = magnitude (initial.get i j)
  augmentations : s.augmentations = 0
  paced : Paced p s.adjustments s.transitions

section Idle

variable {initial : Grid Float n n} {p q : Phase n} {s t : State Float n}

theorem Idle.leastOpen?_le (h : Idle initial p s) {a : Float} (ha : s.leastOpen? = some a)
    (i j : Fin n) : a ≤ s.working.get i j :=
  State.leastOpen?_le ordered_unsigned (fun i j => (h.proper i j).1) ha (h.rows i) (h.cols j)

theorem Idle.get_shift (h : Idle initial p s) (a : Float) (i j : Fin n) :
    (s.shift a).get i j = s.working.get i j - a := by
  rw [State.get_shift, if_neg (h.rows i), if_neg (h.cols j)]

theorem Idle.ne_done (h : Idle initial p s) : p ≠ .done := by
  rintro rfl
  have hdone := h.paced
  generalize s.adjustments = k, s.transitions = m at hdone
  cases hdone

variable (hzero : ∃ i j, magnitude (initial.get i j) = 0)

include hzero

theorem Idle.leastOpen?_zero (h : Idle initial p s) {a : Float} (ha : s.leastOpen? = some a) :
    0 ≤ a ∧ magnitude a = 0 := by
  obtain ⟨k, l, -, -, hget⟩ := State.leastOpen?_mem ha
  have hunsigned : 0 ≤ a := hget ▸ (h.proper k l).1
  -- every entry is open, so the least one is at most the zero
  obtain ⟨i, j, hij⟩ := hzero
  have hle := h.leastOpen?_le ha i j
  rw [le_iff_magnitude hunsigned (h.proper i j).1, h.kept, hij] at hle
  exact ⟨hunsigned, Nat.le_zero.1 hle⟩

theorem Idle.shifted (h : Idle initial .adjust s) {a : Float} (ha : s.leastOpen? = some a) :
    Idle initial .search (s.shifted a).counted := by
  obtain ⟨hunsigned, hsize⟩ := h.leastOpen?_zero hzero ha
  refine ⟨h.blank, h.rows, h.cols, fun i j => ?_, fun i j => ?_, h.augmentations,
    h.paced.adjusted⟩
  · show 0 ≤ (s.shift a).get i j ∧ ((s.shift a).get i j).isFinite = true
    rw [h.get_shift]
    exact proper_sub (h.proper i j).1 hunsigned (h.leastOpen?_le ha i j) (h.proper i j).2
  · show magnitude ((s.shift a).get i j) = _
    rw [h.get_shift, magnitude_sub_zero (h.proper i j).1 (h.proper i j).2 hunsigned hsize]
    exact h.kept i j

/-- All that a turn can do where no entry counts as zero. -/
theorem Advance.idle (h : Advance p s q t) (hs : Idle initial p s)
    (hno : ∀ i j, ¬s.working.get i j ≤ s.tolerance) : Idle initial q t := by
  have hnone : s.openZero? = none := State.openZero?_eq_none.2 fun i j _ _ => hno i j
  cases h with
  | start =>
      rw [State.start_of_no_zero fun i j => Bool.eq_false_of_not_eq_true
        fun hz => hno i j (State.isZero_iff.1 hz)]
      exact ⟨hs.blank, not_get_replicate_false, hs.cols, hs.proper, hs.kept, hs.augmentations,
        hs.paced.started⟩
  | finish hall =>
      -- there is a column, and it is not covered
      obtain ⟨-, j, -⟩ := hzero
      exact absurd (State.allCovered_iff.1 hall j) (hs.cols j)
  | resume =>
      exact ⟨hs.blank, hs.rows, hs.cols, hs.proper, hs.kept, hs.augmentations, hs.paced.tested⟩
  | exhausted =>
      exact ⟨hs.blank, hs.rows, hs.cols, hs.proper, hs.kept, hs.augmentations, hs.paced.searched⟩
  | found hfound =>
      rw [hnone] at hfound
      cases hfound
  | covered hfound =>
      rw [hnone] at hfound
      cases hfound
  | flip =>
      have hflip := hs.paced
      generalize s.adjustments = k, s.transitions = m at hflip
      cases hflip
  | adjust ha => exact hs.shifted hzero ha

/-- The adjustment by a zero. -/
theorem Idle.adjust? (h : Idle initial p s) : ∃ m a, s.adjust? = some m ∧
    m.state.lastAmount = some a ∧ (a == 0) = true ∧ m.state.working.SameNumbers s.working := by
  obtain ⟨a, ha⟩ : ∃ a, s.leastOpen? = some a := by
    obtain ⟨i, j, -⟩ := hzero
    have hopen : (i, j) ∈ s.openCells := State.mem_openCells.2 ⟨h.rows i, h.cols j⟩
    exact leastOf?_isSome (List.mem_map_of_mem hopen)
  obtain ⟨hunsigned, hsize⟩ := h.leastOpen?_zero hzero ha
  refine ⟨⟨s.shifted a, .search, [.adjusted a]⟩, a, congrArg (Option.map _) ha, rfl,
    (beq_iff_magnitude hunsigned (by decide)).2 hsize, fun i j => ?_⟩
  have hx := h.proper i j
  have hle := h.leastOpen?_le ha i j
  show ((s.shift a).get i j == s.working.get i j) = true
  rw [h.get_shift, beq_iff_magnitude (proper_sub hx.1 hunsigned hle hx.2).1 hx.1]
  exact magnitude_sub_zero hx.1 hx.2 hunsigned hsize

end Idle

/-! ## Idle runs -/

section Runs

variable {scores : Grid Float n n} {direction : Direction} {t : Float} {patience : Option Nat}
  {trace : Bool} {past : List (Taken Float n)} {r : Run Float n}

theorem exists_zero_normalize (h : scores.Proper) (hn : 0 < n) (direction : Direction) :
    ∃ i j, magnitude ((scores.normalize direction).get i j) = 0 := by
  obtain ⟨i, hi⟩ := (scores.orient direction scores.top).exists_reduce_eq_sub_self ⟨0, hn⟩ hn
  rw [Binary.sub_self ((h.orient direction).lowerRows i ⟨0, hn⟩).2] at hi
  exact ⟨i, ⟨0, hn⟩, congrArg magnitude hi⟩

variable (hproper : scores.Proper) (hn : 0 < n) (ht : t < 0 ∨ t.isNaN = true)

include hproper hn ht

theorem Course.idle (h : Course patience trace (begin scores direction t) past r) :
    Idle (scores.normalize direction) r.phase r.state := by
  induction h with
  | here =>
      exact ⟨Grid.get_replicate _, not_get_replicate_false, not_get_replicate_false,
        hproper.normalize direction, fun _ _ => rfl, rfl, .start⟩
  | turn h hs ih =>
      apply (Run.advance_of_turn hs).idle (exists_zero_normalize hproper hn direction) ih
      intro i j
      rw [h.tolerance]
      exact not_le_of_unsigned ht (ih.proper i j).1

/-- However many turns it has, a run that nobody stops does not come to an end. -/
theorem play_unfinished (direction : Direction) (trace : Bool) (turns : Nat) :
    ((begin scores direction t).play none trace turns).1 = .unfinished := by
  rcases Course.play_course turns (.here : Course none trace (begin scores direction t) [] _) rfl
    with ⟨hhow, -⟩ | ⟨past, r, h, hends⟩
  · exact hhow
  · rcases Run.turn_ends_sound (h.sound (begin_sound scores direction t)) hends with
      ⟨-, hdone, -⟩ | ⟨-, hpatience⟩
    · exact absurd hdone (h.idle hproper hn ht).ne_done
    · cases hpatience

/-- The search that a run is not let go on to tells what it has counted. -/
theorem Course.adjustments_of_asks {s : Run Float n}
    (h : Course none trace (begin scores direction t) past r)
    (hs : r.turn none trace = .goesOn s) (hasks : asks r.phase s.phase = true) :
    s.phase = .search ∧ s.polls = r.polls + 1 ∧ s.state.adjustments = r.polls := by
  have hphase : s.phase = .search := by
    have hopens := (Run.advance_of_turn hs).asks_eq
    rw [hasks] at hopens
    exact eq_of_beq (Bool.and_eq_true_iff.1 hopens.symm).1
  have hpolls : s.polls = r.polls + 1 := by
    rw [Course.polls_succ hs, if_pos hasks]
  have hnext := h.turn hs
  have hcount := hnext.polls_eq (begin_fresh scores direction t) rfl
  rw [hpolls, hphase, (hnext.idle hproper hn ht).augmentations] at hcount
  simp only [Phase.pending] at hcount
  exact ⟨hphase, hpolls, by omega⟩

/-- A run that is stopped has made an adjustment each time that it was let go on to one. -/
theorem solve_stopped (direction : Direction) (trace : Bool) (k : Nat) :
    (solve scores direction t (some k) trace).ending = .cancelled ∧
      (solve scores direction t (some k) trace).polls = k + 1 ∧
      (solve scores direction t (some k) trace).run.state.adjustments = k ∧
      Idle (scores.normalize direction) .search
        (solve scores direction t (some k) trace).run.state.counted := by
  have hfresh := begin_fresh scores direction t
  have hsound := begin_sound scores direction t
  -- patience bounds the polls, and what is idle makes no more turns than it is asked
  have hlimit : ∀ {past r}, Course (some k) trace (begin scores direction t) past r →
      past.length < turnLimit n (some k) := by
    intro past r h
    have hpolls := h.polls_le (Nat.zero_le k)
    rw [h.unlimited.polls_eq hfresh rfl] at hpolls
    rw [h.length_eq_transitions hfresh]
    have hturns := (h.idle hproper hn ht).paced.turns_le
    show _ < 3 + (n - 1) * (3 * n + 10) / 2 + 2 * (k + 1)
    omega
  obtain ⟨past, r, h, hends⟩ := Course.play_ends hlimit
  cases hplay : (begin scores direction t).play (some k) trace (turnLimit n (some k)) with
  | mk how u =>
      rw [hplay] at hends
      obtain ⟨hending, hstate, hasked⟩ := solve_of_play hplay
      rcases Run.turn_ends_sound (h.sound hsound) hends with ⟨-, hdone, -⟩ | ⟨rfl, hpatience⟩
      · exact absurd hdone (h.idle hproper hn ht).ne_done
      · obtain ⟨s, hs, hasks, hcounted, hshown⟩ := Run.turn_cancelled hends
        obtain ⟨hphase, hpolls, hadjusted⟩ :=
          h.unlimited.adjustments_of_asks hproper hn ht hs hasks
        obtain rfl : k = r.polls := Option.some.inj hpatience
        refine ⟨hending, ?_, ?_, ?_⟩
        · show List.length _ = r.polls + 1
          rw [hasked, hshown]
          exact hpolls
        · rw [hstate]
          exact (congrArg State.adjustments hcounted).trans hadjusted
        · rw [hstate, hcounted, ← hphase]
          exact (h.unlimited.turn hs).idle hproper hn ht

end Runs
end Hungarian

/-! ## Solvers without zeros -/

open Hungarian

/-- A solver whose tolerance is negative or not a number marks nothing, changes no entry and never
comes to an end; when it is stopped it has adjusted by zero each time that it was let go on. -/
theorem every_solve_without_zeros_idles (solver : Solver) {input : ScoreInput}
    {scores : SquareGrid Float} (hvalid : (Scores.validate input).result = .ok scores)
    (ht : solver.tolerance < 0 ∨ solver.tolerance.isNaN = true) :
    (∀ (patience : Option Nat) {past r}, Course patience solver.trace
        (begin scores.grid solver.direction solver.tolerance) past r →
      r.phase ≠ .done ∧ (∀ i j, r.state.marks.get i j = .blank) ∧
      (r.phase = .adjust → ∃ m h, r.state.adjust? = some m ∧ m.state.lastAmount = some h ∧
        (h == 0) = true ∧ m.state.working.SameNumbers r.state.working)) ∧
    (∀ turns, ((begin scores.grid solver.direction solver.tolerance).play none solver.trace
      turns).1 = .unfinished) ∧
    ∀ check : CancelCheck, check.answer.isTrue = true →
      (solver.attempt (some check) input).answer.result = .error .cancelled ∧
      (solver.attempt (some check) input).snapshots.length = check.after + 1 ∧
      ∃ state : State Float scores.size,
        (solver.attempt (some check) input).solver.last = some ⟨scores.size, state⟩ ∧
        (∀ i j, state.marks.get i j = .blank) ∧ state.augmentations = 0 ∧
        state.adjustments = check.after ∧ state.transitions = 2 * check.after + 1 := by
  have hproper := Scores.validate_ok hvalid
  have hn := scores.size_pos
  refine ⟨fun patience past r h => ?_, play_unfinished hproper hn ht solver.direction solver.trace,
    fun check hcheck => ?_⟩
  · have hidle := h.idle hproper hn ht
    exact ⟨hidle.ne_done, hidle.blank, fun _ =>
      hidle.adjust? (exists_zero_normalize hproper hn solver.direction)⟩
  · have hpatience : (some check).bind CancelCheck.patience = some check.after := if_pos hcheck
    obtain ⟨hlast, hshown⟩ := solver.attempt_state (some check) hvalid
    obtain ⟨hending, hpolls, hadjusted, hidle⟩ :=
      solve_stopped hproper hn ht solver.direction solver.trace check.after
    rw [hpatience] at hlast hshown
    refine ⟨?_, ?_, _, hlast, hidle.blank, hidle.augmentations, hadjusted, ?_⟩
    · rw [Solver.attempt_result hvalid, hpatience]
      unfold Solver.result
      rw [hending]
    · rw [hshown, List.length_map]
      show (List.reverse _).length = _
      rw [List.length_reverse]
      exact hpolls
    · exact Nat.succ.inj (hidle.paced.turns_eq.trans (congrArg (2 * · + 2) hadjusted))

/-- A solver with a negative tolerance that is stopped when it is asked for the third time, and one
whose tolerance is not a number and that nobody stops. -/
theorem every_solve_without_zeros_idles_thrice :
    ((({ Solver.standard with tolerance := -1.0 } : Solver).attempt (some ⟨2, .bool true⟩)
      sampleScores).answer.result = .error .cancelled ∧
    (({ Solver.standard with tolerance := -1.0 } : Solver).attempt (some ⟨2, .bool true⟩)
      sampleScores).snapshots.length = 3) ∧
    ∃ scores, (Scores.validate sampleScores).result = .ok scores ∧ ∀ turns,
      ((begin scores.grid .minimize notANumber).play none false turns).1 = .unfinished := by
  obtain ⟨scores, h⟩ := exists_sampleScores
  have hnegative := (every_solve_without_zeros_idles { Solver.standard with tolerance := -1.0 } h
    (.inl (by decide +kernel))).2.2 ⟨2, .bool true⟩ rfl
  have hnan := (every_solve_without_zeros_idles { Solver.standard with tolerance := notANumber } h
    (.inr (by decide +kernel))).2.1
  exact ⟨⟨hnegative.1, hnegative.2.1⟩, scores, h, hnan⟩

end OptimalAssignment
