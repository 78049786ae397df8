import OptimalAssignment.Proofs.Binary.Whole
import OptimalAssignment.Proofs.Hungarian.Growth
import OptimalAssignment.Proofs.Hungarian.Image
import OptimalAssignment.Proofs.Scores.Proper

/-!
# Whole scores

Between doubles that are whole numbers up to `2 ^ 53` sums and differences are exact.  A run on
whole scores up to half of that never leaves this range, because in exact arithmetic no entry grows
beyond twice the largest one.  So it goes through the states of the run in exact arithmetic.
-/

namespace OptimalAssignment

open Binary

/-! ## Whole grids -/

/-- All entries are whole numbers up to the bound. -/
def Grid.AllWhole {r c : Nat} (bound : Nat) (g : Grid Float r c) : Prop :=
  ∀ i j, Whole bound (g.get i j)

namespace Grid.AllWhole

variable {r c bound : Nat} {g : Grid Float r c}

theorem mono (h : g.AllWhole bound) {larger : Nat} (hle : bound ≤ larger) : g.AllWhole larger :=
  fun i j => (h i j).mono hle

theorem unsigned (h : g.AllWhole bound) (i : Fin r) (j : Fin c) : 0 ≤ g.get i j :=
  (h i j).unsigned

theorem orderedBy (h : g.AllWhole bound) : g.OrderedBy value :=
  fun i j k l => (h i j).le_iff (h k l)

theorem top (h : g.AllWhole bound) : Whole bound g.top := by
  rcases g.top_cases with hzero | ⟨i, j, hget⟩
  · rw [hzero]
    exact ⟨by decide, by decide, 0, Nat.zero_le _, value_zero⟩
  · exact hget ▸ h i j

variable (hbound : bound ≤ 2 ^ 53)

include hbound

theorem lowerRows (h : g.AllWhole bound) :
    g.lowerRows.AllWhole bound ∧ (g.map value).lowerRows = g.lowerRows.map value := by
  have hsub : ∀ i j, Whole bound (g.get i j - g.rowLeasts.get i) ∧
      value (g.get i j - g.rowLeasts.get i) = value (g.get i j) - value (g.rowLeasts.get i) := by
    intro i j
    obtain ⟨k, hk⟩ := g.rowLeasts_mem i j.pos
    exact (h i j).sub (hk ▸ h i k) hbound (rowLeasts_le ordered_unsigned h.unsigned i j)
  refine ⟨fun i j => ?_, h.orderedBy.lowerRows_map fun i j => (hsub i j).2⟩
  rw [get_lowerRows]
  exact (hsub i j).1

theorem lowerColumns (h : g.AllWhole bound) :
    g.lowerColumns.AllWhole bound ∧ (g.map value).lowerColumns = g.lowerColumns.map value := by
  have hsub : ∀ i j, Whole bound (g.get i j - g.columnLeasts.get j) ∧
      value (g.get i j - g.columnLeasts.get j) =
        value (g.get i j) - value (g.columnLeasts.get j) := by
    intro i j
    obtain ⟨k, hk⟩ := g.columnLeasts_mem j i.pos
    exact (h i j).sub (hk ▸ h k j) hbound (columnLeasts_le ordered_unsigned h.unsigned i j)
  refine ⟨fun i j => ?_, h.orderedBy.lowerColumns_map fun i j => (hsub i j).2⟩
  rw [get_lowerColumns]
  exact (hsub i j).1

theorem orient (h : g.AllWhole bound) (direction : Direction) :
    (g.orient direction g.top).AllWhole bound ∧
      (g.map value).orient direction (g.map value).top = (g.orient direction g.top).map value := by
  have hsub : ∀ i j, Whole bound (g.top - g.get i j) ∧
      value (g.top - g.get i j) = value g.top - value (g.get i j) :=
    fun i j => h.top.sub (h i j) hbound (le_top ordered_unsigned h.unsigned i j)
  refine ⟨?_, h.orderedBy.orient_map direction fun i j => (hsub i j).2⟩
  cases direction with
  | minimize => exact h
  | maximize =>
      intro i j
      have hget : (g.orient .maximize g.top).get i j = g.top - g.get i j := get_map _ _ _ _
      rw [hget]
      exact (hsub i j).1

end Grid.AllWhole

/-- Every step of the normalization gives whole numbers up to the bound, and the exact ones. -/
structure Grid.NormalizedExactly {r c : Nat} (bound : Nat) (direction : Direction)
    (scores : Grid Float r c) : Prop where
  oriented : (scores.orient direction scores.top).AllWhole bound
  lowered : (scores.orient direction scores.top).lowerRows.AllWhole bound
  normalized : (scores.normalize direction).AllWhole bound
  oriented_exact : (scores.map value).orient direction (scores.map value).top =
    (scores.orient direction scores.top).map value
  lowered_exact : ((scores.map value).orient direction (scores.map value).top).lowerRows =
    (scores.orient direction scores.top).lowerRows.map value
  normalized_exact :
    (scores.map value).normalize direction = (scores.normalize direction).map value

theorem Grid.AllWhole.normalize {r c bound : Nat} {scores : Grid Float r c}
    (hbound : bound ≤ 2 ^ 53) (h : scores.AllWhole bound) (direction : Direction) :
    scores.NormalizedExactly bound direction := by
  obtain ⟨horient, horient'⟩ := h.orient hbound direction
  obtain ⟨hrows, hrows'⟩ := horient.lowerRows hbound
  obtain ⟨hcols, hcols'⟩ := hrows.lowerColumns hbound
  refine ⟨horient, hrows, hcols, horient', ?_, ?_⟩
  · rw [horient', hrows']
  · unfold Grid.normalize reduce
    rw [horient', hrows', hcols']

namespace Hungarian

variable {n : Nat}

/-! ## Adjustments -/

/-- Both steps of the adjustment give whole numbers up to the bound, and the exact ones. -/
structure State.AdjustsExactly (bound : Nat) (t : ℚ) (s : State Float n) (a : Float) : Prop where
  amount : Whole bound a
  raised : (s.raised a).AllWhole bound
  shifted : (s.shift a).AllWhole bound
  raised_exact : (s.map value t).raised (value a) = (s.raised a).map value
  shifted_exact : (s.map value t).shift (value a) = (s.shift a).map value

theorem State.raised_whole {bound : Nat} (hbound : bound ≤ 2 ^ 53) {t : ℚ} {s : State Float n}
    (hs : s.working.AllWhole bound) {a : Float} (ha : Whole bound a)
    (hle : ∀ i j, ((s.map value t).raised (value a)).get i j ≤ bound) (i j : Fin n) :
    Whole bound ((s.raised a).get i j) ∧
      ((s.map value t).raised (value a)).get i j = value ((s.raised a).get i j) := by
  have hworking : (s.map value t).working.get i j = value (s.working.get i j) :=
    Grid.get_map _ _ _ _
  have hle := hle i j
  rw [State.get_raised] at hle
  rw [State.get_raised, State.get_raised]
  by_cases hj : s.ColCovered j
  · have hj' : (s.map value t).ColCovered j := hj
    rw [if_pos hj', hworking] at hle
    rw [if_pos hj', if_pos hj, hworking]
    obtain ⟨hsum, hval⟩ := (hs i j).add ha hbound hle
    exact ⟨hsum, hval.symm⟩
  · have hj' : ¬(s.map value t).ColCovered j := hj
    rw [if_neg hj', if_neg hj, hworking]
    exact ⟨hs i j, rfl⟩

/-- The least open entry is only taken from entries that are not smaller. -/
theorem State.le_raised {bound : Nat} {s : State Float n} (hs : s.working.AllWhole bound)
    {a : Float} (ha : s.leastOpen? = some a) (hwhole : Whole bound a) {i : Fin n}
    (hi : ¬s.RowCovered i) (j : Fin n) : a ≤ (s.raised a).get i j := by
  rw [State.get_raised]
  split
  · exact (le_add (hs i j).unsigned hwhole.unsigned).2
  · rename_i hj
    exact State.leastOpen?_le ordered_unsigned hs.unsigned ha hi hj

theorem State.adjustsExactly {bound : Nat} (hbound : bound ≤ 2 ^ 53) {t : ℚ} {s : State Float n}
    (hs : s.working.AllWhole bound) {a : Float} (ha : s.leastOpen? = some a)
    (hle : ∀ i j, ((s.map value t).raised (value a)).get i j ≤ bound) :
    s.AdjustsExactly bound t a := by
  obtain ⟨k, l, -, -, hget⟩ := State.leastOpen?_mem ha
  have hamount : Whole bound a := hget ▸ hs k l
  have hraised := State.raised_whole hbound hs hamount hle
  have hshifted : ∀ i j, Whole bound ((s.shift a).get i j) ∧
      ((s.map value t).shift (value a)).get i j = value ((s.shift a).get i j) := by
    intro i j
    rw [State.get_shift_raised, State.get_shift_raised, (hraised i j).2]
    by_cases hi : s.RowCovered i
    · have hi' : (s.map value t).RowCovered i := hi
      rw [if_pos hi', if_pos hi]
      exact ⟨(hraised i j).1, rfl⟩
    · have hi' : ¬(s.map value t).RowCovered i := hi
      rw [if_neg hi', if_neg hi]
      obtain ⟨hdiff, hval⟩ :=
        (hraised i j).1.sub hamount hbound (State.le_raised hs ha hamount hi j)
      exact ⟨hdiff, hval.symm⟩
  exact
    { amount := hamount
      raised := fun i j => (hraised i j).1
      shifted := fun i j => (hshifted i j).1
      raised_exact := Grid.ext fun i j => by rw [(hraised i j).2, Grid.get_map]
      shifted_exact := Grid.ext fun i j => by rw [(hshifted i j).2, Grid.get_map] }

/-! ## Courses -/

theorem adjustments_map {α β : Type} {f : α → β} {t : β} (past : List (Taken α n)) :
    adjustments (past.map (Taken.map f t)) =
      (adjustments past).map fun (amount, stars) => (f amount, stars) := by
  have hone : ∀ k : Taken α n, (k.map f t).adjustment? =
      k.adjustment?.map fun (amount, stars) => (f amount, stars) := by
    intro k
    unfold Taken.adjustment?
    show (if k.before.phase = .adjust then _ else _) = _
    split
    · show Option.map _ (k.after.state.lastAmount.map f) = _
      rw [Option.map_map, Option.map_map]
      rfl
    · rfl
  unfold adjustments
  rw [List.filterMap_map, List.map_filterMap]
  congr 1
  funext k
  exact hone k

/-- What a run computes with so far is whole and exact, and it is the image of the run in exact
arithmetic. -/
structure RunsExactly (bound : Nat) (scores : Grid Float n n) (direction : Direction) (t : Float)
    (patience : Option Nat) (trace : Bool) (past : List (Taken Float n)) (r : Run Float n) :
    Prop where
  entries : r.state.working.AllWhole (2 * bound)
  adjusts : ∀ {a}, r.phase = .adjust → r.state.leastOpen? = some a →
    r.state.AdjustsExactly (2 * bound) (value t) a
  amounts_le : ((adjustments past).map fun (amount, _) => value amount).sum ≤
    value (scores.normalize direction).top
  image : Course patience trace (begin (scores.map value) direction (value t))
    (past.map (Taken.map value (value t))) (r.map value (value t))

section Runs

variable {bound : Nat} {scores : Grid Float n n} {direction : Direction} {t : Float}
  {patience : Option Nat} {trace : Bool} {past : List (Taken Float n)} {r : Run Float n}

theorem reads_of_whole (ht : 0 ≤ t) (hfin : t.isFinite = true) {s : State Float n}
    (hs : s.working.AllWhole bound) (htol : s.tolerance = t) : s.Reads value (value t) where
  ordered := hs.orderedBy
  zero i j := by
    rw [htol]
    exact value_le_iff (hs i j).unsigned ht (hs i j).finite hfin

theorem top_normalize (hbound : bound ≤ 2 ^ 52) (hscores : scores.AllWhole bound)
    (direction : Direction) :
    ((scores.map value).normalize direction).top = value (scores.normalize direction).top ∧
      value (scores.normalize direction).top ≤ bound := by
  have hnormal := hscores.normalize (by omega) direction
  rw [hnormal.normalized_exact, hnormal.normalized.orderedBy.top_map_of_zero value_zero]
  exact ⟨rfl, hnormal.normalized.top.value_le⟩

section Steps

variable (hbound : bound ≤ 2 ^ 52) (hscores : scores.AllWhole bound) (ht : 0 ≤ t)
  (hfin : t.isFinite = true)

include hbound hscores ht hfin

theorem adjustsExactly_of_image (htol : r.state.tolerance = t)
    (hentries : r.state.working.AllWhole (2 * bound))
    (himage : Course patience trace (begin (scores.map value) direction (value t))
      (past.map (Taken.map value (value t))) (r.map value (value t)))
    (hadj : r.phase = .adjust) {a : Float} (ha : r.state.leastOpen? = some a) :
    r.state.AdjustsExactly (2 * bound) (value t) a := by
  have hreads := reads_of_whole ht hfin hentries htol
  have ha' : (r.state.map value (value t)).leastOpen? = some (value a) := by
    rw [hreads.leastOpen?_map, ha]
    rfl
  obtain ⟨htop, htop'⟩ := top_normalize hbound hscores direction
  -- what the exact run adds up to leaves no rounding for this one
  refine State.adjustsExactly (by omega) hentries ha fun i j => ?_
  have hle : ((r.state.map value (value t)).raised (value a)).get i j ≤ _ :=
    himage.bounded.raised_le hadj ha' i j
  rw [htop] at hle
  push_cast
  linarith

theorem faithful_of_image (htol : r.state.tolerance = t)
    (hentries : r.state.working.AllWhole (2 * bound))
    (himage : Course patience trace (begin (scores.map value) direction (value t))
      (past.map (Taken.map value (value t))) (r.map value (value t))) :
    r.Faithful value (value t) where
  reads := reads_of_whole ht hfin hentries htol
  shift hadj _ ha := (adjustsExactly_of_image hbound hscores ht hfin htol hentries himage hadj
    ha).shifted_exact

theorem Course.whole_image (h : Course patience trace (begin scores direction t) past r) :
    r.state.working.AllWhole (2 * bound) ∧
      Course patience trace (begin (scores.map value) direction (value t))
        (past.map (Taken.map value (value t))) (r.map value (value t)) := by
  have hnormal := hscores.normalize (by omega) direction
  -- that the entries are whole and that the images are a course need each other for the next turn
  induction h with
  | here =>
      refine ⟨hnormal.normalized.mono (by omega), ?_⟩
      rw [begin_map (s := t) hnormal.normalized_exact]
      exact .here
  | @turn past r s h hs ih =>
      obtain ⟨hentries, himage⟩ := ih
      have hfaith := faithful_of_image hbound hscores ht hfin h.tolerance hentries himage
      refine ⟨?_, himage.turn (by rw [hfaith.turn_map, hs]; rfl)⟩
      have hadv := Run.advance_of_turn hs
      by_cases hadj : r.phase = .adjust
      · rw [hadj] at hadv
        obtain ⟨-, a, ha, hstate⟩ := hadv.of_adjust
        rw [hstate]
        exact (adjustsExactly_of_image hbound hscores ht hfin h.tolerance hentries himage hadj
          ha).shifted
      · rw [(hadv.frame.2.2 hadj).1]
        exact hentries

theorem Course.runsExactly (h : Course patience trace (begin scores direction t) past r) :
    RunsExactly bound scores direction t patience trace past r := by
  obtain ⟨hentries, himage⟩ := h.whole_image hbound hscores ht hfin
  refine ⟨hentries, fun hadj ha => adjustsExactly_of_image hbound hscores ht hfin h.tolerance
    hentries himage hadj ha, ?_, himage⟩
  have hle := himage.amounts_le
  unfold amounts at hle
  rw [(top_normalize hbound hscores direction).1, adjustments_map, List.map_map] at hle
  exact hle

theorem alwaysFaithful_of_whole (direction : Direction) (patience : Option Nat) (trace : Bool) :
    (begin scores direction t).AlwaysFaithful value (value t) patience trace := by
  intro past r h
  obtain ⟨hentries, himage⟩ := h.whole_image hbound hscores ht hfin
  exact faithful_of_image hbound hscores ht hfin h.tolerance hentries himage

end Steps

/-- On whole scores up to `2 ^ 52` nothing is rounded: the normalization and every adjustment
compute whole numbers, all amounts together are no more than the largest normalized entry, and the
run goes through the states of the exact run and through no others.  The bound may be the largest
score itself. -/
theorem every_whole_run_is_exact (hbound : bound ≤ 2 ^ 52) (hscores : scores.AllWhole bound)
    (direction : Direction) (ht : 0 ≤ t) (hfin : t.isFinite = true) (patience : Option Nat)
    (trace : Bool) :
    scores.NormalizedExactly bound direction ∧
    value (scores.normalize direction).top ≤ bound ∧
    (∀ {past r}, Course patience trace (begin scores direction t) past r →
      RunsExactly bound scores direction t patience trace past r) ∧
    (∀ {past r}, Course patience trace (begin (scores.map value) direction (value t)) past r →
      ∃ past' r', Course patience trace (begin scores direction t) past' r' ∧
        past = past'.map (Taken.map value (value t)) ∧ r = r'.map value (value t)) ∧
    (solve scores direction t patience trace).Mirrors value (value t)
      (solve (scores.map value) direction (value t) patience trace) := by
  have hnormal := hscores.normalize (by omega) direction
  have hfaith : (begin scores direction t).AlwaysFaithful value (value t) patience trace :=
    alwaysFaithful_of_whole hbound hscores ht hfin direction patience trace
  refine ⟨hnormal, (top_normalize hbound hscores direction).2,
    fun h => h.runsExactly hbound hscores ht hfin, fun h => ?_,
    solve_mirrors hnormal.normalized_exact hfaith⟩
  rw [begin_map (s := t) hnormal.normalized_exact] at h
  exact Course.of_map hfaith h

end Runs

/-- Products of the row and the column, close to the largest scores that are kept exact. -/
def largeScores : Grid Float 3 3 :=
  ⟨#v[#v[500000000000000, 1000000000000000, 1500000000000000],
      #v[1000000000000000, 2000000000000000, 3000000000000000],
      #v[1500000000000000, 3000000000000000, 4500000000000000]]⟩

/-- A solve of large scores with an adjustment, and the tolerance of most solves. -/
theorem every_whole_run_is_exact_large :
    (∀ i j, Whole (2 ^ 52) (largeScores.get i j)) ∧
    (solve largeScores .minimize 1e-10 none false).ending = .finished ∧
    (solve largeScores .minimize 1e-10 none false).run.state.adjustments = 1 ∧
    (solve (largeScores.map value) .minimize (value 1e-10) none false).ending = .finished ∧
    (solve (largeScores.map value) .minimize (value 1e-10) none false).run.state =
      (solve largeScores .minimize 1e-10 none false).run.state.map value (value 1e-10) := by
  have hscores : ∀ i j, Whole (2 ^ 52) (largeScores.get i j) := by decide +kernel
  have hfinished : (solve largeScores .minimize 1e-10 none false).ending = .finished := by
    decide +kernel
  obtain ⟨-, -, -, -, hmirrors⟩ := every_whole_run_is_exact (Nat.le_refl _) hscores .minimize
    (t := 1e-10) (by decide +kernel) (by decide +kernel) none false
  exact ⟨hscores, hfinished, by decide +kernel, hmirrors.ending.trans hfinished, hmirrors.state⟩

end Hungarian
end OptimalAssignment
