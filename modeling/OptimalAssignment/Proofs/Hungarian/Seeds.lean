import Mathlib.Data.List.OfFn
import OptimalAssignment.Proofs.Hungarian.Independence

/-!
# Where the first stars stand

The start gives each row, from the first to the last, a star at its first zero in a column that has
none yet.  A row is never changed again, so the stars can be read off the entries alone; and as no
zero is left without a star in one of its lines, they are at least half as many as any independent
zeros.
-/

namespace OptimalAssignment.Hungarian

variable {α : Type} {n : Nat}

namespace State

section Rows

variable [LE α] [DecidableLE α]

theorem freeZero?_eq_some {s : State α n} {i j : Fin n} :
    s.freeZero? i = some j ↔ (¬s.ColCovered j ∧ s.isZero i j = true) ∧
      ∀ l < j, ¬(¬s.ColCovered l ∧ s.isZero i l = true) := by
  have hfind : s.freeZero? i = some j ↔ (!s.colCovered.get j && s.isZero i j) = true ∧
      ∀ l < j, ¬(!s.colCovered.get l && s.isZero i l) = true :=
    List.find?_ofFn_eq_some_of_injective Function.injective_id
  simpa only [Bool.and_eq_true, Bool.not_eq_true', Bool.not_eq_true] using hfind

theorem marks_starRow {s : State α n} {i k : Fin n} (h : i ≠ k) (l : Fin n) :
    (s.starRow i).marks.get k l = s.marks.get k l := by
  obtain ⟨e, -⟩ | ⟨j, e, -⟩ := s.starRow_cases i
  · rw [e]
  · rw [e]
    show (s.mark i j .star).marks.get k l = _
    rw [marks_mark, if_neg fun hkl => h hkl.1]

/-- Only the rows that are gone through are changed. -/
theorem marks_foldl_starRow {rows : List (Fin n)} {k : Fin n} (h : k ∉ rows) (s : State α n)
    (l : Fin n) : (rows.foldl starRow s).marks.get k l = s.marks.get k l := by
  induction rows generalizing s with
  | nil => rfl
  | cons i rows ih =>
      rw [List.mem_cons, not_or] at h
      rw [List.foldl_cons, ih h.2, marks_starRow (Ne.symm h.1)]

/-- A row without a star gets one at its first zero whose column is not covered. -/
theorem starAt_starRow {s : State α n} (h : s.Seeded) {i : Fin n} (hi : ∀ l, ¬s.StarAt i l)
    (j : Fin n) : (s.starRow i).StarAt i j ↔ s.freeZero? i = some j := by
  have hr : ¬s.RowCovered i := fun hr => ((h.row_iff i).1 hr).elim hi
  unfold State.starRow
  rw [if_neg hr]
  cases hz : s.freeZero? i with
  | none => exact ⟨fun hs => absurd hs (hi j), nofun⟩
  | some k =>
      show (s.mark i k .star).marks.get i j = .star ↔ _
      rw [marks_mark]
      by_cases hk : k = j
      · simp [hk]
      · simpa [hk] using hi j

end Rows

/-- No marks and no covers. -/
structure Untouched (s : State α n) : Prop where
  blank : ∀ i j, s.marks.get i j = .blank
  row : ∀ i, ¬s.RowCovered i
  column : ∀ j, ¬s.ColCovered j

theorem untouched_fresh (working : Grid α n n) (tolerance : α) :
    (fresh working tolerance).Untouched where
  blank := Grid.get_replicate _
  row := not_get_replicate_false
  column := not_get_replicate_false

theorem Untouched.seeded {s : State α n} (h : s.Untouched) : s.Seeded :=
  .of_blank h.blank h.row h.column

theorem Untouched.not_starAt {s : State α n} (h : s.Untouched) (i j : Fin n) : ¬s.StarAt i j := by
  intro hs
  rw [StarAt, h.blank] at hs
  cases hs

end State

/-! ## The stars of a start -/

/-- The rows before and after a row. -/
theorem finRange_split (i : Fin n) : ∃ before after, List.finRange n = before ++ i :: after ∧
    (∀ k, k ∈ before ↔ k < i) ∧ ∀ k, k ∈ after ↔ i < k := by
  obtain ⟨before, after, hsplit⟩ := List.append_of_mem (List.mem_finRange i)
  have hpair := List.pairwise_lt_finRange n
  rw [hsplit, List.pairwise_append, List.pairwise_cons] at hpair
  obtain ⟨-, ⟨hafter, -⟩, hbefore⟩ := hpair
  have hmem : ∀ k, k ∈ before ∨ k = i ∨ k ∈ after := by
    intro k
    have hk := List.mem_finRange k
    rwa [hsplit, List.mem_append, List.mem_cons] at hk
  refine ⟨before, after, hsplit, fun k => ⟨fun hk => hbefore k hk i List.mem_cons_self, fun hk => ?_⟩,
    fun k => ⟨hafter k, fun hk => ?_⟩⟩
  · rcases hmem k with h | rfl | h
    · exact h
    · exact absurd hk (lt_irrefl _)
    · exact absurd hk (lt_asymm (hafter k h))
  · rcases hmem k with h | rfl | h
    · exact absurd hk (lt_asymm (hbefore k h i List.mem_cons_self))
    · exact absurd hk (lt_irrefl _)
    · exact h

variable [LE α]

/-- An entry that counts as zero and has no star above it. -/
def FreeZero (s t : State α n) (i j : Fin n) : Prop :=
  s.working.get i j ≤ s.tolerance ∧ ∀ k < i, ¬t.StarAt k j

/-- The stars stand on the first free zero of each row; nothing else is marked, exactly their columns
are covered, and no zero could be starred as well. -/
structure FirstStarred (s t : State α n) : Prop where
  star_iff : ∀ i j, t.StarAt i j ↔ FreeZero s t i j ∧ ∀ l < j, ¬FreeZero s t i l
  settled : t.Settled
  maximal : ∀ {i j}, s.working.get i j ≤ s.tolerance →
    (∃ l, t.StarAt i l) ∨ ∃ k, t.StarAt k j
  half : ∀ {cells}, Independent s.working s.tolerance cells → cells.card ≤ 2 * t.starCount
  entries : s.SameEntries t

variable [DecidableLE α]

theorem State.Untouched.starAt_start {s : State α n} (h : s.Untouched) (i j : Fin n) :
    s.start.state.StarAt i j ↔
      FreeZero s s.start.state i j ∧ ∀ l < j, ¬FreeZero s s.start.state i l := by
  obtain ⟨before, after, hsplit, hbefore, hafter⟩ := finRange_split i
  -- the state in which the row is gone through
  let u := before.foldl State.starRow s
  have hu : u.Seeded := (State.seeded_foldl_starRow before h.seeded).1
  have hentries : s.SameEntries u := State.sameEntries_foldl_starRow before s
  have hlast : ∀ k l, s.start.state.marks.get k l =
      (after.foldl State.starRow (u.starRow i)).marks.get k l := by
    intro k l
    show ((List.finRange n).foldl State.starRow s).marks.get k l = _
    rw [hsplit, List.foldl_append, List.foldl_cons]
  have hrow : ∀ l, s.start.state.StarAt i l ↔ (u.starRow i).StarAt i l := by
    intro l
    unfold State.StarAt
    rw [hlast, State.marks_foldl_starRow fun hi => lt_irrefl i ((hafter i).1 hi)]
  have habove : ∀ {k}, k < i → ∀ l, s.start.state.StarAt k l ↔ u.StarAt k l := by
    intro k hk l
    unfold State.StarAt
    rw [hlast, State.marks_foldl_starRow fun hi => lt_asymm hk ((hafter k).1 hi),
      State.marks_starRow (ne_of_gt hk)]
  have hbelow : ∀ {k l}, u.StarAt k l → k < i := by
    intro k l hs
    by_contra hk
    have hmarks : u.marks.get k l = s.marks.get k l :=
      State.marks_foldl_starRow (fun hmem => hk ((hbefore k).1 hmem)) s l
    rw [State.StarAt, hmarks] at hs
    exact h.not_starAt k l hs
  -- its covered columns are those with a star above
  have hfree : ∀ l, ¬u.ColCovered l ∧ u.isZero i l = true ↔ FreeZero s s.start.state i l := by
    intro l
    rw [State.isZero_congr hentries, State.isZero_iff, hu.col_iff, and_comm]
    unfold FreeZero
    refine and_congr_right fun _ => ⟨fun hnone k hk hs => ?_, fun hnone => ?_⟩
    · exact hnone ⟨k, (habove hk l).1 hs⟩
    · rintro ⟨k, hs⟩
      exact hnone k (hbelow hs) ((habove (hbelow hs) l).2 hs)
  rw [hrow, State.starAt_starRow hu fun l hs => lt_irrefl i (hbelow hs), State.freeZero?_eq_some]
  simp only [hfree]

theorem State.Untouched.firstStarred {s : State α n} (h : s.Untouched) :
    FirstStarred s s.start.state where
  star_iff := h.starAt_start
  settled := State.settled_start h.seeded
  maximal hz := State.star_of_zero_start h.seeded (State.isZero_iff.2 hz)
  half {cells} hcells := by
    have hbalanced := (State.settled_start h.seeded).balanced
    -- the starred rows and columns cover all zeros
    have hle : cells.card ≤ s.start.state.starredRows.card + s.start.state.starredCols.card :=
      hcells.card_le fun x hx => by
        rw [State.mem_starredRows, State.mem_starredCols]
        exact State.star_of_zero_start h.seeded (State.isZero_iff.2 (hcells.zero hx))
    rw [← hbalanced.starCount_eq_rows, ← hbalanced.starCount_eq_cols] at hle
    omega
  entries := s.sameEntries_start

/-- A start without marks and covers stars the first free zero of each row, whatever the entries are
and whether or not they are reduced. -/
theorem every_start_stars_the_first_free_zeros {α : Type} [LE α] [DecidableLE α] {n : Nat}
    {s : State α n} (h : s.Untouched) : FirstStarred s s.start.state ∧ s.start.phase = .test :=
  ⟨h.firstStarred, rfl⟩

/-- The star of the first row takes the column of the only zero of the second. -/
def greedyZeros : State Int 3 :=
  .fresh ⟨#v[#v[-1, 0, 2], #v[0, 3, 4], #v[5, 1, 6]]⟩ 1

theorem every_start_stars_the_first_free_zeros_short :
    FirstStarred greedyZeros greedyZeros.start.state ∧
    greedyZeros.start.state.stars = [(0, 0), (2, 1)] :=
  ⟨(every_start_stars_the_first_free_zeros (State.untouched_fresh _ _)).1, by decide +kernel⟩

end OptimalAssignment.Hungarian
