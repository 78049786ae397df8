import Mathlib.Data.List.Perm.Subperm
import Mathlib.Order.WellFounded
import OptimalAssignment.Proofs.Greedy
import OptimalAssignment.Proofs.RunSort

/-!
# The greedy matching

Cells are ordered by their entries, and like entries by their places.  A cell is matched if no
matched cell in its lines comes before it, and this leaves no choice: the matching is determined,
however the cells were sorted.
-/

namespace OptimalAssignment.Greedy

variable {α : Type} {r c : Nat}

/-! ## The order of cells -/

/-- Row by row. -/
def RowMajor (x y : Cell r c) : Prop :=
  x.1 < y.1 ∨ x.1 = y.1 ∧ x.2 < y.2

instance : DecidableRel (RowMajor (r := r) (c := c)) :=
  fun x y => inferInstanceAs (Decidable (x.1 < y.1 ∨ x.1 = y.1 ∧ x.2 < y.2))

theorem RowMajor.trans {x y z : Cell r c} (hxy : RowMajor x y) (hyz : RowMajor y z) :
    RowMajor x z := by
  unfold RowMajor at *
  omega

theorem RowMajor.irrefl (x : Cell r c) : ¬RowMajor x x := by
  unfold RowMajor
  omega

theorem pairwise_allCells (r c : Nat) : (allCells r c).Pairwise RowMajor :=
  rising_allCells r c

def lessOrLike (le : α → α → Bool) (g : Grid α r c) (x y : Cell r c) : Bool :=
  le (g.entry x) (g.entry y)

/-- A smaller entry, or a like one that comes first row by row. -/
abbrev Earlier (le : α → α → Bool) (g : Grid α r c) : Cell r c → Cell r c → Prop :=
  RunSort.Ahead (lessOrLike le g) RowMajor

theorem not_earlier_self (le : α → α → Bool) (g : Grid α r c) (x : Cell r c) : ¬Earlier le g x x :=
  fun hx => RowMajor.irrefl x (hx.2 hx.1)

/-- Any two entries can be compared. -/
structure TotallyOrdered (le : α → α → Bool) (g : Grid α r c) : Prop where
  trans : ∀ x y z, le (g.entry x) (g.entry y) = true → le (g.entry y) (g.entry z) = true →
    le (g.entry x) (g.entry z) = true
  total : ∀ x y, le (g.entry x) (g.entry y) = true ∨ le (g.entry y) (g.entry x) = true

/-! ## Greedy matchings -/

structure GreedyMatching (le : α → α → Bool) (g : Grid α r c) (found : List (Cell r c)) :
    Prop where
  length : found.length = min r c
  apart : found.Pairwise fun x y => x.1 ≠ y.1 ∧ x.2 ≠ y.2
  rising : found.Pairwise (Earlier le g)
  blocked : ∀ y, ∃ x ∈ found, SharesLine x y ∧ (x = y ∨ Earlier le g x y)

/-- All cells, each behind those that come earlier. -/
structure InOrder (le : α → α → Bool) (g : Grid α r c) (order : List (Cell r c)) : Prop where
  all : order.Perm (allCells r c)
  rising : order.Pairwise (Earlier le g)

/-- No cell taken lies in the row or in the column. -/
def isFree (taken : List (Cell r c)) (x : Cell r c) : Bool :=
  taken.all fun y => y.1 != x.1 && y.2 != x.2

def takeFree (taken : List (Cell r c)) (x : Cell r c) : List (Cell r c) :=
  if isFree taken x then taken ++ [x] else taken

/-- Takes a cell whenever its row and its column are still free. -/
def onePass (order : List (Cell r c)) : List (Cell r c) :=
  order.foldl takeFree []

theorem not_sharesLine {x y : Cell r c} : ¬SharesLine x y ↔ x.1 ≠ y.1 ∧ x.2 ≠ y.2 :=
  not_or

theorem exists_free_line {n : Nat} {taken : List (Fin n)} (h : taken.length < n) :
    ∃ i, i ∉ taken := by
  by_contra hall
  push Not at hall
  have hsub := (List.nodup_finRange n).subperm fun i _ => hall i
  have hle := hsub.length_le
  rw [List.length_finRange] at hle
  omega

theorem length_eq_min {found : List (Cell r c)}
    (hapart : found.Pairwise fun x y => x.1 ≠ y.1 ∧ x.2 ≠ y.2)
    (hlines : ∀ y, ∃ x ∈ found, SharesLine x y) : found.length = min r c := by
  have hrows : (found.map Prod.fst).Nodup := List.pairwise_map.2 (hapart.imp And.left)
  have hcols : (found.map Prod.snd).Nodup := List.pairwise_map.2 (hapart.imp And.right)
  have hr := hrows.length_le_card
  have hc := hcols.length_le_card
  rw [List.length_map, Fintype.card_fin] at hr hc
  by_contra hne
  -- a free row and a free column cross in a cell without a matched one in its lines
  obtain ⟨i, hi⟩ : ∃ i, i ∉ found.map Prod.fst := exists_free_line (by rw [List.length_map]; omega)
  obtain ⟨j, hj⟩ : ∃ j, j ∉ found.map Prod.snd := exists_free_line (by rw [List.length_map]; omega)
  obtain ⟨x, hx, hrow | hcol⟩ := hlines (i, j)
  · exact hi (List.mem_map.2 ⟨x, hx, hrow⟩)
  · exact hj (List.mem_map.2 ⟨x, hx, hcol⟩)

/-! ## One pass -/

theorem isFree_concat (taken : List (Cell r c)) (x y : Cell r c) :
    isFree (taken ++ [x]) y = (isFree taken y && (x.1 != y.1 && x.2 != y.2)) := by
  simp [isFree]

theorem foldl_takeFree (taken order : List (Cell r c)) :
    order.foldl takeFree taken = taken ++ pick (order.filter (isFree taken)) := by
  induction order generalizing taken with
  | nil => simp [pick]
  | cons x order ih =>
      rw [List.foldl_cons, ih, List.filter_cons, takeFree]
      cases hfree : isFree taken x with
      | false => rfl
      | true =>
          rw [if_pos rfl, if_pos rfl, pick, List.filter_filter, List.append_assoc,
            List.singleton_append]
          -- what the taken cell drops is what it keeps from being free
          congr 3
          refine List.filter_congr fun y _ => ?_
          rw [isFree_concat, Bool.and_comm, bne_comm, bne_comm (a := y.2)]

/-- Dropping the cells in the lines of a cell that is taken is passing over them later. -/
theorem onePass_eq_pick (order : List (Cell r c)) : onePass order = pick order := by
  have hall : order.filter (isFree []) = order := List.filter_eq_self.2 fun _ _ => rfl
  rw [onePass, foldl_takeFree, hall, List.nil_append]

/-! ## Uniqueness -/

section Orders

variable {le : α → α → Bool} {g : Grid α r c} (h : TotallyOrdered le g)

include h

theorem TotallyOrdered.comparable : RunSort.Comparable (lessOrLike le g) RowMajor where
  trans := h.trans _ _ _
  total := h.total
  before_trans := RowMajor.trans
  before_irrefl := RowMajor.irrefl

theorem inOrder_sorted : InOrder le g (sorted le g) where
  all := List.mergeSort_perm _ _
  rising := h.comparable.sorted_mergeSort (pairwise_allCells r c)

theorem InOrder.eq_sorted {order : List (Cell r c)} (horder : InOrder le g order) :
    order = sorted le g :=
  h.comparable.eq_of_sorted horder.rising (inOrder_sorted h).rising
    (horder.all.trans (inOrder_sorted h).all.symm)

theorem greedyMatching_cells : GreedyMatching le g (cells le g) where
  length := length_eq_min ((pairwise_pick _).imp not_sharesLine.1) (exists_cells le g)
  apart := (pairwise_pick _).imp not_sharesLine.1
  rising := (inOrder_sorted h).rising.sublist (sublist_pick _)
  blocked y := exists_mem_pick (inOrder_sorted h).rising (mem_sorted le g y)

omit h in
/-- A cell is matched unless a matched one in its lines comes earlier. -/
theorem GreedyMatching.mem_iff {found : List (Cell r c)} (hg : GreedyMatching le g found)
    {x : Cell r c} : x ∈ found ↔ ¬∃ y ∈ found, SharesLine y x ∧ Earlier le g y x := by
  constructor
  · rintro hx ⟨y, hy, hline, hearlier⟩
    have hne : y ≠ x := fun he => not_earlier_self le g x (he ▸ hearlier)
    have hapart : found.Pairwise fun x y => ¬SharesLine x y := hg.apart.imp not_sharesLine.2
    exact hapart.forall hy hx hne hline
  · intro hnone
    obtain ⟨y, hy, hline, rfl | hearlier⟩ := hg.blocked x
    · exact hy
    · exact absurd ⟨y, hy, hline, hearlier⟩ hnone

theorem GreedyMatching.unique {found other : List (Cell r c)} (hfound : GreedyMatching le g found)
    (hother : GreedyMatching le g other) : other = found := by
  have hwf : WellFounded (Earlier le g) := by
    have : IsTrans _ (Earlier le g) := ⟨fun _ _ _ => h.comparable.ahead_trans⟩
    have : Std.Irrefl (Earlier le g) := ⟨not_earlier_self le g⟩
    exact Finite.wellFounded_of_trans_of_irrefl _
  have hmem : ∀ x, x ∈ other ↔ x ∈ found := by
    intro x
    induction x using hwf.induction with
    | h x ih =>
        rw [hother.mem_iff, hfound.mem_iff]
        refine not_congr (exists_congr fun y => ?_)
        constructor
        · rintro ⟨hy, hline, hearlier⟩
          exact ⟨(ih y hearlier).1 hy, hline, hearlier⟩
        · rintro ⟨hy, hline, hearlier⟩
          exact ⟨(ih y hearlier).2 hy, hline, hearlier⟩
  have hnodup : ∀ {l : List (Cell r c)}, GreedyMatching le g l → l.Nodup := fun hl =>
    hl.apart.imp fun hapart he => hapart.1 (congrArg Prod.fst he)
  exact h.comparable.eq_of_sorted hother.rising hfound.rising
    ((List.perm_ext_iff_of_nodup (hnodup hother) (hnodup hfound)).2 hmem)

end Orders
end OptimalAssignment.Greedy
