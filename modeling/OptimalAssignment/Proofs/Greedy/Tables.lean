import Mathlib.Tactic.FinCases
import OptimalAssignment.Proofs.Binary.Order
import OptimalAssignment.Proofs.Greedy.Uniqueness

/-!
# Greedy matchings of tables

The entries of a table are compared as its kind asks for, and tables of anything are sorted by runs.
Where the comparison orders the entries, both sorts give the greedy matching.  It does for whole
numbers and for reals; cells of reals that are not numbers come last, but tables of anything must
not hold them.
-/

namespace OptimalAssignment.Greedy

open Binary

variable {r c : Nat} {kind : Kind} {le : Value → Value → Bool} {g : Grid Value r c}

/-- The comparison that the sort asks for orders the entries; they may be alike. -/
structure Sortable (kind : Kind) (le : Value → Value → Bool) (g : Grid Value r c) : Prop
    extends TotallyOrdered le g where
  precedes : kind ≠ .any → ∀ x y,
    precedes (g.entry x) (g.entry y) = !le (g.entry y) (g.entry x)
  compare : kind = .any → ∀ x y,
    compare (g.entry x) (g.entry y) = .ok (RunSort.ordering le (g.entry x) (g.entry y))

theorem Sortable.tableCells_eq (h : Sortable kind le g) : tableCells kind g = .ok (cells le g) := by
  unfold tableCells
  split
  · rename_i hany
    have hconsistent : RunSort.Consistent (fun x y => Greedy.compare (g.entry x) (g.entry y))
        (lessOrLike le g) RowMajor :=
      { h.toTotallyOrdered.comparable with compare := h.compare hany }
    rw [hconsistent.sort_eq_mergeSort (pairwise_allCells r c)]
    rfl
  · rename_i hkind
    have hle : (fun x y => !Greedy.precedes (g.entry y) (g.entry x)) = lessOrLike le g := by
      funext x y
      rw [h.precedes hkind, Bool.not_not]
      rfl
    show Except.ok (pick ((allCells r c).mergeSort fun x y =>
      !Greedy.precedes (g.entry y) (g.entry x))) = _
    rw [hle]
    rfl

/-! ## Entries with an order -/

theorem Sortable.of_key {K : Type} [LinearOrder K] (key : Value → K)
    (hprecedes : kind ≠ .any → ∀ x y,
      Greedy.precedes (g.entry x) (g.entry y) = decide (key (g.entry x) < key (g.entry y)))
    (hcompare : kind = .any → ∀ x y,
      (g.entry x).precedes? (g.entry y) = some (decide (key (g.entry x) < key (g.entry y)))) :
    Sortable kind (fun v w => decide (key v ≤ key w)) g where
  trans x y z hxy hyz :=
    decide_eq_true ((of_decide_eq_true hxy).trans (of_decide_eq_true hyz))
  total x y := (le_total (key (g.entry x)) (key (g.entry y))).imp decide_eq_true decide_eq_true
  precedes hkind x y := by
    rw [hprecedes hkind, ← decide_not]
    exact decide_eq_decide.2 not_le.symm
  compare hany x y := by
    rw [Greedy.compare, hcompare hany, hcompare hany]
    rcases lt_trichotomy (key (g.entry x)) (key (g.entry y)) with hlt | heq | hgt
    · simp [RunSort.ordering, hlt, hlt.le]
    · simp [RunSort.ordering, heq]
    · simp [RunSort.ordering, hgt, hgt.le, not_lt_of_gt hgt]

/-- Truth values are whole numbers too. -/
theorem Sortable.of_whole (hwhole : ∀ x, (g.entry x).int?.isSome) :
    Sortable kind (fun v w => decide (v.int?.getD 0 ≤ w.int?.getD 0)) g := by
  have hint : ∀ x, (∃ b, g.entry x = .bool b) ∨ ∃ i, g.entry x = .int i := by
    intro x
    have hx := hwhole x
    cases hv : g.entry x with
    | bool b => exact .inl ⟨b, rfl⟩
    | int i => exact .inr ⟨i, rfl⟩
    | _ =>
        rw [hv] at hx
        cases hx
  refine .of_key (fun v => v.int?.getD 0) (fun _ x y => ?_) fun _ x y => ?_
  · rcases hint x with ⟨b, hx⟩ | ⟨i, hx⟩ <;> rcases hint y with ⟨b', hy⟩ | ⟨j, hy⟩ <;>
      rw [hx, hy] <;> rfl
  · rcases hint x with ⟨b, hx⟩ | ⟨i, hx⟩ <;> rcases hint y with ⟨b', hy⟩ | ⟨j, hy⟩ <;>
      rw [hx, hy] <;> rfl

def realRank : Value → Int
  | .real x => rank x
  | _ => 0

theorem precedes_real (x y : Float) :
    precedes (.real x) (.real y) = decide (rank x < rank y) := by
  rw [Bool.eq_iff_iff, decide_eq_true_iff]
  show (decide (x < y) || (y.isNaN && !x.isNaN)) = true ↔ _
  cases hx : x.isNaN <;> cases hy : y.isNaN
  · simpa using lt_iff_rank hx hy
  · have hle := rank_le_limit hx
    rw [rank_of_isNaN hy]
    simpa using Int.lt_add_one_of_le hle
  · have hle := rank_le_limit hy
    rw [rank_of_isNaN hx]
    simpa [not_lt_of_isNaN (.inl hx)] using Int.le_trans hle (Int.le_add_one (Int.le_refl _))
  · rw [rank_of_isNaN hx, rank_of_isNaN hy]
    simp [not_lt_of_isNaN (.inl hx)]

theorem Sortable.of_reals
    (hreal : ∀ x, ∃ f, g.entry x = .real f ∧ (kind = .any → f.isNaN = false)) :
    Sortable kind (fun v w => decide (realRank v ≤ realRank w)) g := by
  refine .of_key realRank (fun _ x y => ?_) fun hany x y => ?_
  · obtain ⟨f, hf, -⟩ := hreal x
    obtain ⟨f', hf', -⟩ := hreal y
    rw [hf, hf']
    exact precedes_real f f'
  · obtain ⟨f, hf, hnan⟩ := hreal x
    obtain ⟨f', hf', hnan'⟩ := hreal y
    rw [hf, hf']
    exact congrArg some (decide_eq_decide.2 (lt_iff_rank (hnan hany) (hnan' hany)))

/-! ## Matchings of tables -/

/-- The cells row by row. -/
abbrev tableOf (a : RawScores) (r c : Nat) : Grid Value r c :=
  Grid.ofArray r c .null a.cells.cells

/-- The cells that are returned are a greedy matching, there is no other, and one pass over all cells
in order takes the same. -/
theorem every_greedy_matching_is_unique (input : ScoreInput) {a : RawScores}
    (hraw : input.raw = .ok a) (hshape : a.shape = [r, c])
    (hle : Sortable a.kind le (tableOf a r c)) :
    ∃ found : List (Cell r c), cellsOf input = .ok (found.map fun x => (x.1.val, x.2.val)) ∧
      GreedyMatching le (tableOf a r c) found ∧
      (∀ other, GreedyMatching le (tableOf a r c) other → other = found) ∧
      (∃ order, InOrder le (tableOf a r c) order) ∧
      ∀ order, InOrder le (tableOf a r c) order → onePass order = found := by
  have h := hle.toTotallyOrdered
  have hcells := greedyMatching_cells h
  refine ⟨cells le _, ?_, hcells, fun other hother => hcells.unique h hother,
    ⟨_, inOrder_sorted h⟩, fun order horder => ?_⟩
  · unfold cellsOf
    rw [hraw]
    simp only [Except.mapError, RunSort.ok_bind]
    rw [hshape]
    simp only []
    rw [hle.tableCells_eq]
    rfl
  · rw [onePass_eq_pick, horder.eq_sorted h]
    rfl

/-- Two rows and three columns, most of them alike. -/
def wideReals : RawScores :=
  ⟨.real 64, ⟨[2, 3], #[.real 2, .real 1, .real 1, .real 1, .real 0.5, .real 1]⟩⟩

/-- A row more than there are columns, and whole numbers beyond 64 bits. -/
def tallLoose : RawScores :=
  ⟨.any, ⟨[3, 2], #[.int (2 ^ 70), .int 1, .bool true, .int (2 ^ 70), .int 1, .int 0]⟩⟩

theorem every_greedy_matching_is_unique_wide_and_tall :
    (∃ found : List (Cell 2 3),
      cellsOf (.array wideReals) = .ok (found.map fun x => (x.1.val, x.2.val)) ∧
        found.length = 2) ∧
    cellsOf (.array tallLoose) = .ok [(2, 1), (1, 0)] := by
  have hreal : ∀ x : Cell 2 3, ∃ f, (tableOf wideReals 2 3).entry x = .real f ∧
      (wideReals.kind = .any → f.isNaN = false) := by
    rintro ⟨i, j⟩
    fin_cases i <;> fin_cases j <;> exact ⟨_, rfl, nofun⟩
  have hwhole : ∀ x : Cell 3 2, ((tableOf tallLoose 3 2).entry x).int?.isSome := by decide
  obtain ⟨found, hfound, hgreedy, -⟩ := every_greedy_matching_is_unique
    (.array wideReals) rfl rfl (.of_reals hreal)
  obtain ⟨found', hfound', -, hunique, -⟩ := every_greedy_matching_is_unique
    (.array tallLoose) rfl rfl (.of_whole hwhole)
  refine ⟨⟨found, hfound, hgreedy.length⟩, ?_⟩
  rw [hfound', ← hunique [(2, 1), (1, 0)] ⟨rfl, by decide, by decide, by decide⟩]
  rfl

end OptimalAssignment.Greedy
