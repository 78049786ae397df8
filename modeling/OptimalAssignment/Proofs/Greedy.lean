import Mathlib.Data.Fintype.EquivFin
import OptimalAssignment.Greedy
import OptimalAssignment.Proofs.Matching

/-!
# Greedy picks

The cells that are picked share no lines, and every cell shares a line with one of them that does
not come after it.  So on a square they are the cells of a permutation, whatever order they were
picked in.
-/

namespace OptimalAssignment.Greedy

variable {α : Type} {r c n : Nat}

/-! ## Picking -/

/-- The cells lie in the same row or in the same column. -/
def SharesLine (x y : Cell r c) : Prop :=
  x.1 = y.1 ∨ x.2 = y.2

instance : DecidableRel (SharesLine (r := r) (c := c)) :=
  fun x y => inferInstanceAs (Decidable (x.1 = y.1 ∨ x.2 = y.2))

instance symm_not_sharesLine : Std.Symm fun x y : Cell r c => ¬SharesLine x y :=
  ⟨fun _ _ h hline => h (hline.imp Eq.symm Eq.symm)⟩

theorem mem_dropped {x y : Cell r c} {rest : List (Cell r c)} :
    y ∈ rest.filter (fun y => y.1 != x.1 && y.2 != x.2) ↔ y ∈ rest ∧ ¬SharesLine x y := by
  unfold SharesLine
  rw [List.mem_filter, Bool.and_eq_true, bne_iff_ne, bne_iff_ne, not_or, ne_comm,
    ne_comm (a := y.2)]

theorem pick_induction {motive : List (Cell r c) → Prop} (nil : motive [])
    (cons : ∀ x rest, motive (rest.filter fun y => y.1 != x.1 && y.2 != x.2) → motive (x :: rest))
    (cells : List (Cell r c)) : motive cells := by
  induction cells using pick.induct with
  | case1 => exact nil
  | case2 x rest ih =>
      simp only [List.unattach_filter, List.unattach_attach] at ih
      exact cons x rest ih

theorem sublist_pick (cells : List (Cell r c)) : (pick cells).Sublist cells := by
  induction cells using pick_induction with
  | nil => simp [pick]
  | cons a rest ih =>
      rw [pick]
      exact (ih.trans List.filter_sublist).cons_cons a

theorem mem_of_mem_pick {cells : List (Cell r c)} {x : Cell r c} (h : x ∈ pick cells) :
    x ∈ cells :=
  (sublist_pick cells).subset h

theorem pairwise_pick (cells : List (Cell r c)) :
    (pick cells).Pairwise fun x y => ¬SharesLine x y := by
  induction cells using pick_induction with
  | nil => simp [pick]
  | cons a rest ih =>
      rw [pick]
      exact List.pairwise_cons.2 ⟨fun y hy => (mem_dropped.1 (mem_of_mem_pick hy)).2, ih⟩

/-- Only a cell that is picked before it can keep a cell from being picked. -/
theorem exists_mem_pick {R : Cell r c → Cell r c → Prop} {cells : List (Cell r c)}
    (hsorted : cells.Pairwise R) {y : Cell r c} (hy : y ∈ cells) :
    ∃ x ∈ pick cells, SharesLine x y ∧ (x = y ∨ R x y) := by
  induction cells using pick_induction with
  | nil => cases hy
  | cons a rest ih =>
      obtain ⟨hfirst, hrest⟩ := List.pairwise_cons.1 hsorted
      rw [pick]
      -- a cell that the first one drops comes after it; the others are still in order
      rcases List.mem_cons.1 hy with rfl | hy
      · exact ⟨y, List.mem_cons_self, .inl rfl, .inl rfl⟩
      · by_cases hline : SharesLine a y
        · exact ⟨a, List.mem_cons_self, hline, .inr (hfirst y hy)⟩
        · obtain ⟨x, hx, hshare⟩ := ih (hrest.filter _) (mem_dropped.2 ⟨hy, hline⟩)
          exact ⟨x, List.mem_cons_of_mem _ hx, hshare⟩

/-! ## The picked cells of a grid -/

section Grids

variable (le : α → α → Bool) (g : Grid α r c)

theorem mem_sorted (x : Cell r c) : x ∈ sorted le g :=
  (List.mergeSort_perm _ _).mem_iff.2 (mem_allCells x)

theorem eq_of_sharesLine {x y : Cell r c} (hx : x ∈ cells le g) (hy : y ∈ cells le g)
    (h : SharesLine x y) : x = y := by
  by_contra hne
  exact (pairwise_pick (sorted le g)).forall hx hy hne h

theorem exists_cells (y : Cell r c) : ∃ x ∈ cells le g, SharesLine x y := by
  have hany : (sorted le g).Pairwise fun _ _ => True := List.pairwise_of_forall fun _ _ => trivial
  obtain ⟨x, hx, hline, -⟩ := exists_mem_pick hany (mem_sorted le g y)
  exact ⟨x, hx, hline⟩

/-- In a total order no cell has a smaller entry than every picked cell in its lines. -/
theorem exists_cells_le [LinearOrder α] (g : Grid α r c) (y : Cell r c) :
    ∃ x ∈ cells (· ≤ ·) g, SharesLine x y ∧ g.entry x ≤ g.entry y := by
  have hdecided : (sorted (· ≤ ·) g).Pairwise fun x y => decide (g.entry x ≤ g.entry y) = true := by
    apply List.pairwise_mergeSort
    · intro x y z hxy hyz
      exact decide_eq_true ((of_decide_eq_true hxy).trans (of_decide_eq_true hyz))
    · intro x y
      rw [Bool.or_eq_true, decide_eq_true_iff, decide_eq_true_iff]
      exact le_total _ _
  have hsorted := hdecided.imp of_decide_eq_true
  obtain ⟨x, hx, hline, hle⟩ := exists_mem_pick hsorted (mem_sorted _ g y)
  refine ⟨x, hx, hline, ?_⟩
  rcases hle with rfl | hle
  · exact le_refl _
  · exact hle

end Grids

/-! ## Squares -/

theorem exists_cells_row (le : α → α → Bool) (g : Grid α n n) (i : Fin n) :
    ∃ j, (i, j) ∈ cells le g := by
  by_contra hnone
  push Not at hnone
  -- then the cells of the row are kept out by their columns, so each column has a picked cell
  have hcol : ∀ j, ∃ k, (k, j) ∈ cells le g := by
    intro j
    obtain ⟨⟨k, l⟩, hx, hrow | hcol⟩ := exists_cells le g (i, j)
    · have hrow : k = i := hrow
      exact absurd (hrow ▸ hx) (hnone l)
    · have hcol : l = j := hcol
      exact ⟨k, hcol ▸ hx⟩
  choose f hf using hcol
  have hinj : Function.Injective f := fun j k hjk =>
    congrArg Prod.snd (eq_of_sharesLine le g (hf j) (hf k) (.inl hjk))
  -- and as there are as many columns as rows, some of these cells lies in the row
  obtain ⟨j, hj⟩ := Finite.surjective_of_injective hinj i
  exact hnone j (hj ▸ hf j)

theorem exists_perm_cells (le : α → α → Bool) (g : Grid α n n) :
    ∃ σ : Equiv.Perm (Fin n), ∀ i j, (i, j) ∈ cells le g ↔ σ i = j := by
  choose f hf using exists_cells_row le g
  have hinj : Function.Injective f := fun i k hik =>
    congrArg Prod.fst (eq_of_sharesLine le g (hf i) (hf k) (.inr hik))
  refine ⟨Equiv.ofBijective f (Finite.injective_iff_bijective.1 hinj), fun i j => ?_⟩
  show (i, j) ∈ cells le g ↔ f i = j
  constructor
  · intro hcell
    exact congrArg Prod.snd (eq_of_sharesLine le g (hf i) hcell (.inl rfl))
  · rintro rfl
    exact hf i

theorem isMatrixOf_indicator_iff {found : List (Cell n n)} {σ : Equiv.Perm (Fin n)} :
    Matching.IsMatrixOf (Matching.indicator found) σ ↔ ∀ i j, (i, j) ∈ found ↔ σ i = j := by
  unfold Matching.IsMatrixOf Matching.indicator
  refine forall_congr' fun i => forall_congr' fun j => ?_
  rw [Grid.get_ofFn]
  by_cases hcell : (i, j) ∈ found <;> by_cases hσ : σ i = j <;> simp [hcell, hσ]

theorem exists_perm_matching [Zero α] [Add α] [Neg α] [LE α] [DecidableLE α]
    (scores : Grid α n n) (direction : Direction) :
    ∃ σ, Matching.IsMatrixOf (matching scores direction).matrix σ := by
  cases direction with
  | minimize =>
      obtain ⟨σ, hσ⟩ := exists_perm_cells (· ≤ ·) scores
      exact ⟨σ, isMatrixOf_indicator_iff.2 hσ⟩
  | maximize =>
      obtain ⟨σ, hσ⟩ := exists_perm_cells (· ≤ ·) (scores.map (-·))
      exact ⟨σ, isMatrixOf_indicator_iff.2 hσ⟩

end OptimalAssignment.Greedy
