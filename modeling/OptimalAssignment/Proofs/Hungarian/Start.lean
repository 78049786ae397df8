import OptimalAssignment.Proofs.Hungarian.Balance

/-!
# The first stars

While the rows are gone through, exactly the lines of the stars are covered; a zero of a row that was
gone through has a covered line.  Only marks and covers change.
-/

namespace OptimalAssignment.Hungarian.State

variable {α : Type} {n : Nat}

/-- All but marks and covers is the same. -/
def SameEntries (s t : State α n) : Prop :=
  t = { s with marks := t.marks, rowCovered := t.rowCovered, colCovered := t.colCovered }

theorem SameEntries.trans {s t u : State α n} (h : s.SameEntries t) (h' : t.SameEntries u) :
    s.SameEntries u := by
  unfold SameEntries at *
  rw [h', h]

/-- As long as stars are only added, each together with its lines. -/
structure Seeded (s : State α n) : Prop where
  star_row : ∀ {i j k}, s.StarAt i j → s.StarAt i k → j = k
  star_col : ∀ {i k j}, s.StarAt i j → s.StarAt k j → i = k
  row_iff : ∀ i, s.RowCovered i ↔ ∃ j, s.StarAt i j
  col_iff : ∀ j, s.ColCovered j ↔ ∃ i, s.StarAt i j
  no_prime : ∀ i j, ¬s.PrimeAt i j

theorem Seeded.of_blank {s : State α n} (hm : ∀ i j, s.marks.get i j = .blank)
    (hr : ∀ i, ¬s.RowCovered i) (hc : ∀ j, ¬s.ColCovered j) : s.Seeded where
  star_row {i j _} h := by rw [StarAt, hm] at h; cases h
  star_col {i k j} h := by rw [StarAt, hm] at h; cases h
  row_iff i := ⟨fun h => absurd h (hr i), fun ⟨j, h⟩ => by rw [StarAt, hm] at h; cases h⟩
  col_iff j := ⟨fun h => absurd h (hc j), fun ⟨i, h⟩ => by rw [StarAt, hm] at h; cases h⟩
  no_prime i j h := by rw [PrimeAt, hm] at h; cases h

theorem seeded_fresh (working : Grid α n n) (tolerance : α) : (fresh working tolerance).Seeded :=
  .of_blank (Grid.get_replicate _) not_get_replicate_false not_get_replicate_false

section Rows

variable [LE α] [DecidableLE α]

/-- A star with both of its lines covered. -/
def seed (s : State α n) (i j : Fin n) : State α n :=
  ((s.mark i j .star).coverRow i true).coverColumn j true

omit [LE α] [DecidableLE α] in
theorem marks_seed (s : State α n) (i j a b : Fin n) :
    (s.seed i j).marks.get a b = if i = a ∧ j = b then .star else s.marks.get a b :=
  marks_mark _ _ _ _ _ _

omit [LE α] [DecidableLE α] in
theorem starAt_seed {s : State α n} {i j a b : Fin n} :
    (s.seed i j).StarAt a b ↔ (i = a ∧ j = b) ∨ s.StarAt a b := by
  unfold StarAt
  rw [marks_seed]
  by_cases e : i = a ∧ j = b
  · simp [e]
  · simp [e]

omit [LE α] [DecidableLE α] in
theorem rowCovered_seed {s : State α n} {i j a : Fin n} :
    (s.seed i j).RowCovered a ↔ i = a ∨ s.RowCovered a := by
  have hget : (s.seed i j).rowCovered.get a = if i = a then true else s.rowCovered.get a :=
    rowCovered_coverRow _ _ _ _
  unfold RowCovered
  rw [hget]
  by_cases e : i = a
  · simp [e]
  · simp [e]

omit [LE α] [DecidableLE α] in
theorem colCovered_seed {s : State α n} {i j b : Fin n} :
    (s.seed i j).ColCovered b ↔ j = b ∨ s.ColCovered b := by
  have hget : (s.seed i j).colCovered.get b = if j = b then true else s.colCovered.get b :=
    colCovered_coverColumn _ _ _ _
  unfold ColCovered
  rw [hget]
  by_cases e : j = b
  · simp [e]
  · simp [e]

theorem starRow_cases (s : State α n) (i : Fin n) :
    (s.starRow i = s ∧ (s.RowCovered i ∨ ∀ j, ¬s.ColCovered j → s.isZero i j = false)) ∨
    ∃ j, s.starRow i = s.seed i j ∧ ¬s.RowCovered i ∧ ¬s.ColCovered j ∧ s.isZero i j = true := by
  unfold starRow
  by_cases hr : s.RowCovered i
  · exact .inl ⟨if_pos hr, .inl hr⟩
  · rw [if_neg hr]
    split
    · rename_i hz
      refine .inl ⟨rfl, .inr fun j hc => ?_⟩
      have hfree : s.colCovered.get j = false := Bool.eq_false_of_not_eq_true hc
      have := List.find?_eq_none.1 hz j (List.mem_finRange j)
      simpa [hfree] using this
    · rename_i j hz
      have := List.find?_some hz
      simp only [Bool.and_eq_true, Bool.not_eq_true'] at this
      exact .inr ⟨j, rfl, hr, by simp [this.1], this.2⟩

theorem sameEntries_starRow (s : State α n) (i : Fin n) : s.SameEntries (s.starRow i) := by
  obtain ⟨h, -⟩ | ⟨j, h, -⟩ := s.starRow_cases i
  · rw [h]; rfl
  · rw [h]; rfl

omit [LE α] [DecidableLE α] in
theorem Seeded.seed {s : State α n} (h : s.Seeded) {i j : Fin n} (hr : ¬s.RowCovered i)
    (hc : ¬s.ColCovered j) : (s.seed i j).Seeded := by
  -- lines that are not covered hold no star yet
  have hrow : ∀ k, ¬s.StarAt i k := fun k hk => hr ((h.row_iff i).2 ⟨k, hk⟩)
  have hcol : ∀ k, ¬s.StarAt k j := fun k hk => hc ((h.col_iff j).2 ⟨k, hk⟩)
  refine ⟨?_, ?_, fun a => ?_, fun b => ?_, fun a b hp => ?_⟩
  · intro a b c hb hc
    rcases starAt_seed.1 hb with ⟨rfl, rfl⟩ | hb <;> rcases starAt_seed.1 hc with ⟨e, rfl⟩ | hc
    · rfl
    · exact absurd hc (hrow c)
    · subst e; exact absurd hb (hrow b)
    · exact h.star_row hb hc
  · intro a c b ha hc
    rcases starAt_seed.1 ha with ⟨rfl, rfl⟩ | ha <;> rcases starAt_seed.1 hc with ⟨rfl, e⟩ | hc
    · rfl
    · exact absurd hc (hcol c)
    · subst e; exact absurd ha (hcol a)
    · exact h.star_col ha hc
  · simp only [rowCovered_seed, starAt_seed, h.row_iff a, exists_or, exists_and_left,
      exists_eq', and_true]
  · simp only [colCovered_seed, starAt_seed, h.col_iff b, exists_or, exists_and_right,
      exists_eq', true_and]
  · unfold PrimeAt at hp
    rw [marks_seed] at hp
    split at hp
    · cases hp
    · exact h.no_prime a b hp

theorem Seeded.starRow {s : State α n} (h : s.Seeded) (i : Fin n) : (s.starRow i).Seeded := by
  obtain ⟨e, -⟩ | ⟨j, e, hr, hc, -⟩ := s.starRow_cases i
  · rwa [e]
  · rw [e]; exact h.seed hr hc

theorem rowCovered_starRow {s : State α n} {a : Fin n} (h : s.RowCovered a) (i : Fin n) :
    (s.starRow i).RowCovered a := by
  obtain ⟨e, -⟩ | ⟨j, e, -⟩ := s.starRow_cases i
  · rwa [e]
  · rw [e]
    exact rowCovered_seed.2 (.inr h)

theorem colCovered_starRow {s : State α n} {b : Fin n} (h : s.ColCovered b) (i : Fin n) :
    (s.starRow i).ColCovered b := by
  obtain ⟨e, -⟩ | ⟨j, e, -⟩ := s.starRow_cases i
  · rwa [e]
  · rw [e]
    exact colCovered_seed.2 (.inr h)

/-- No zero of the row is left without a covered line. -/
theorem zero_covered_starRow {s : State α n} {i j : Fin n} (hz : s.isZero i j = true) :
    (s.starRow i).RowCovered i ∨ (s.starRow i).ColCovered j := by
  obtain ⟨e, h⟩ | ⟨k, e, -⟩ := s.starRow_cases i
  · rw [e]
    rcases h with hr | hfree
    · exact .inl hr
    · refine .inr ?_
      by_contra hc
      rw [hfree j hc] at hz
      cases hz
  · rw [e]
    exact .inl (rowCovered_seed.2 (.inl rfl))

theorem isZero_congr {s t : State α n} (h : s.SameEntries t) (i j : Fin n) :
    t.isZero i j = s.isZero i j := by
  rw [h]
  rfl

theorem sameEntries_foldl_starRow (rows : List (Fin n)) (s : State α n) :
    s.SameEntries (rows.foldl starRow s) := by
  induction rows generalizing s with
  | nil => rfl
  | cons r rows ih => exact (s.sameEntries_starRow r).trans (ih _)

/-- What going through some rows keeps and achieves. -/
theorem seeded_foldl_starRow (rows : List (Fin n)) {s : State α n} (h : s.Seeded) :
    (rows.foldl starRow s).Seeded ∧
      (∀ a, s.RowCovered a → (rows.foldl starRow s).RowCovered a) ∧
      (∀ b, s.ColCovered b → (rows.foldl starRow s).ColCovered b) ∧
      ∀ i ∈ rows, ∀ j, s.isZero i j = true →
        (rows.foldl starRow s).RowCovered i ∨ (rows.foldl starRow s).ColCovered j := by
  induction rows generalizing s with
  | nil => exact ⟨h, fun _ => id, fun _ => id, by simp⟩
  | cons r rows ih =>
      obtain ⟨hseed, hrow, hcol, hzero⟩ := ih (h.starRow r)
      have hr := s.sameEntries_starRow r
      rw [List.foldl_cons]
      refine ⟨hseed, fun a ha => hrow a (rowCovered_starRow ha r),
        fun b hb => hcol b (colCovered_starRow hb r), fun i hi j hz => ?_⟩
      -- what the first row achieves is kept by the others
      rcases List.mem_cons.1 hi with rfl | hi
      · exact (zero_covered_starRow hz).imp (hrow _) (hcol _)
      · exact hzero i hi j (by rwa [isZero_congr hr])

end Rows

/-! ## The whole start -/

section Start

variable [LE α] [DecidableLE α]

theorem sameEntries_start (s : State α n) : s.SameEntries s.start.state :=
  (sameEntries_foldl_starRow (List.finRange n) s).trans rfl

theorem settled_start {s : State α n} (h : s.Seeded) : s.start.state.Settled := by
  have hseed := (seeded_foldl_starRow (List.finRange n) h).1
  exact
    { star_row := hseed.star_row
      star_col := hseed.star_col
      no_row := not_get_replicate_false
      col_iff := hseed.col_iff
      no_prime := hseed.no_prime }

/-- Each zero has a star in its row or in its column. -/
theorem star_of_zero_start {s : State α n} (h : s.Seeded) {i j : Fin n}
    (hz : s.isZero i j = true) :
    (∃ k, s.start.state.StarAt i k) ∨ ∃ k, s.start.state.StarAt k j := by
  obtain ⟨hseed, -, -, hzero⟩ := seeded_foldl_starRow (List.finRange n) h
  exact (hzero i (List.mem_finRange i) j hz).imp (hseed.row_iff i).1 (hseed.col_iff j).1

theorem starCount_start_pos {s : State α n} (h : s.Seeded) {i j : Fin n}
    (hz : s.isZero i j = true) : 1 ≤ s.start.state.starCount := by
  rw [starCount_eq_card]
  apply Finset.card_pos.2
  rcases star_of_zero_start h hz with ⟨k, hk⟩ | ⟨k, hk⟩
  · exact ⟨(i, k), mem_starSet.2 hk⟩
  · exact ⟨(k, j), mem_starSet.2 hk⟩

end Start
end OptimalAssignment.Hungarian.State
