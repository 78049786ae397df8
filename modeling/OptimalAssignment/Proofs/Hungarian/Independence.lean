import OptimalAssignment.Proofs.Hungarian.Certificate

/-!
# Independent zeros

Zeros are independent if no two of them share a line.  Lines that cover all zeros are at least as
many as any independent zeros.  When a run adjusts, the covered lines do so and are as many as the
stars, so it has starred as many zeros as it can; and it never adjusts if and only if there is an
independent zero for each row from the start.
-/

namespace OptimalAssignment.Hungarian

variable {α : Type} {n : Nat}

/-- Entries that count as zero, no two of them in one line. -/
structure Independent [LE α] (g : Grid α n n) (t : α) (cells : Finset (Cell n n)) : Prop where
  zero : ∀ {x}, x ∈ cells → g.entry x ≤ t
  apart : ∀ {x y}, x ∈ cells → y ∈ cells → x ≠ y → x.1 ≠ y.1 ∧ x.2 ≠ y.2

theorem Independent.card_le [LE α] {g : Grid α n n} {t : α} {cells : Finset (Cell n n)}
    (h : Independent g t cells) {rows cols : Finset (Fin n)}
    (hcover : ∀ x ∈ cells, x.1 ∈ rows ∨ x.2 ∈ cols) : cells.card ≤ rows.card + cols.card := by
  -- each line covers at most one cell: those in one of the rows are counted by their rows, and the
  -- others by their columns
  rw [← Finset.card_filter_add_card_filter_not (s := cells) fun x => x.1 ∈ rows]
  apply Nat.add_le_add
  · apply Finset.card_le_card_of_injOn Prod.fst
    · intro x hx
      exact (Finset.mem_filter.1 hx).2
    · intro x hx y hy hrow
      by_contra hne
      exact (h.apart (Finset.mem_filter.1 hx).1 (Finset.mem_filter.1 hy).1 hne).1 hrow
  · apply Finset.card_le_card_of_injOn Prod.snd
    · intro x hx
      obtain ⟨hmem, hrow⟩ := Finset.mem_filter.1 hx
      exact (hcover x hmem).resolve_left hrow
    · intro x hx y hy hcol
      by_contra hne
      exact (h.apart (Finset.mem_filter.1 hx).1 (Finset.mem_filter.1 hy).1 hne).2 hcol

section Runs

variable [LE α]

/-- The covered lines hold all zeros and are as many as the stars, which no independent zeros
outnumber. -/
structure Exhausted (t : α) (s : State α n) : Prop where
  covered : ∀ {i j}, s.working.get i j ≤ t → s.RowCovered i ∨ s.ColCovered j
  lines : s.coveredRows.card + s.coveredCols.card = s.starCount
  largest : ∀ {cells}, Independent s.working t cells → cells.card ≤ s.starCount

theorem State.Settled.independent_stars {s : State α n} (h : s.Settled) (hz : s.MarkedZero) :
    Independent s.working s.tolerance s.starSet where
  zero hx := hz _ _ (.inl (mem_starSet.1 hx))
  apart {x y} hx hy hne := by
    have hx := mem_starSet.1 hx
    have hy := mem_starSet.1 hy
    constructor
    · intro hrow
      rw [hrow] at hx
      exact hne (Prod.ext hrow (h.star_row hx hy))
    · intro hcol
      rw [hcol] at hx
      exact hne (Prod.ext (h.star_col hx hy) hcol)

variable [DecidableLE α]

theorem Sound.exhausted {s : State α n} (h : Sound .adjust s) : Exhausted s.tolerance s := by
  have hcovered : ∀ {i j}, s.working.get i j ≤ s.tolerance → s.RowCovered i ∨ s.ColCovered j := by
    intro i j hz
    -- an open zero would have been found by the search
    by_contra hopen
    push Not at hopen
    exact State.openZero?_eq_none.1 h.2.2 i j hopen.1 hopen.2 hz
  refine ⟨hcovered, h.1.coveredRows_add_coveredCols, fun {cells} hind => ?_⟩
  rw [← h.1.coveredRows_add_coveredCols]
  apply hind.card_le
  intro x hx
  rw [State.mem_coveredRows, State.mem_coveredCols]
  exact hcovered (hind.zero hx)

variable [Add α] [Sub α] {patience : Option Nat} {trace : Bool} {first r : Run α n}
  {past : List (Taken α n)}

/-- As long as nothing is adjusted, the entries are those from the start and the marked ones are
zeros. -/
theorem Course.unadjusted (h : Course patience trace first past r) (hz : first.state.MarkedZero)
    (hr : r.state.adjustments = 0) :
    r.state.working = first.state.working ∧ r.state.MarkedZero := by
  induction h with
  | here => exact ⟨rfl, hz⟩
  | @turn past r s _ hs ih =>
      have hadv := Run.advance_of_turn hs
      have hphase : r.phase ≠ .adjust := by
        intro hadj
        rw [hadj] at hadv
        obtain ⟨-, a, -, hstate⟩ := hadv.of_adjust
        rw [hstate] at hr
        cases hr
      obtain ⟨hworking, hcount⟩ := hadv.frame.2.2 hphase
      rw [hcount] at hr
      obtain ⟨hsame, hmarked⟩ := ih hr
      exact ⟨hworking.trans hsame, hadv.markedZero hphase hmarked⟩

/-- A run that has adjusted was about to do so when its entries were still those from the start. -/
theorem Course.first_adjustment (h : Course patience trace first past r)
    (h₀ : first.state.adjustments = 0) (hr : r.state.adjustments ≠ 0) :
    ∃ past' r', Course patience trace first past' r' ∧ r'.phase = .adjust ∧
      r'.state.adjustments = 0 := by
  induction h with
  | here => exact absurd h₀ hr
  | @turn past r s h hs ih =>
      -- the first adjustment is this turn, or it was before
      by_cases hbefore : r.state.adjustments = 0
      · refine ⟨past, r, h, ?_, hbefore⟩
        by_contra hphase
        rw [((Run.advance_of_turn hs).frame.2.2 hphase).2] at hr
        exact hr hbefore
      · exact ih hbefore

theorem Course.adjustments_eq_zero_iff (h : Course patience trace first past r)
    (hsound : Sound first.phase first.state) (hz : first.state.MarkedZero)
    (h₀ : first.state.adjustments = 0) (hdone : r.phase = .done) :
    r.state.adjustments = 0 ↔ ∃ cells : Finset (Cell n n),
      Independent first.state.working first.state.tolerance cells ∧ cells.card = n := by
  constructor
  -- the stars of a finished run are independent zeros
  · intro hr
    obtain ⟨hsame, hmarked⟩ := h.unadjusted hz hr
    have hlast := h.sound hsound
    rw [hdone] at hlast
    have hstars := hlast.1.independent_stars hmarked
    rw [hsame, h.tolerance] at hstars
    exact ⟨r.state.starSet, hstars, by rw [← State.starCount_eq_card, hlast.2]⟩
  -- and a run that is about to adjust lacks a star, so there are no more independent zeros
  · rintro ⟨cells, hcells, hcard⟩
    by_contra hr
    obtain ⟨past', r', h', hadj, hzero⟩ := h.first_adjustment h₀ hr
    have hsound' := h'.sound hsound
    rw [hadj] at hsound'
    have hlt : r'.state.starCount < n := hsound'.2.1
    rw [← (h'.unadjusted hz hzero).1, ← h'.tolerance] at hcells
    have hle := hsound'.exhausted.largest hcells
    omega

end Runs
end OptimalAssignment.Hungarian
