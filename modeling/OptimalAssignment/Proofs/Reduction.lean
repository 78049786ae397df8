import Mathlib.Algebra.BigOperators.Fin
import Mathlib.Algebra.Order.Group.Defs
import Mathlib.Tactic.Abel
import OptimalAssignment.Proofs.Entries
import OptimalAssignment.Proofs.Grid
import OptimalAssignment.Reduction

/-!
# Reduction reaches zero

The amounts that are taken from the lines are entries of these lines, and the least of them.  In
exact arithmetic a reduction takes the same from every permutation.
-/

namespace OptimalAssignment.Grid

variable {α : Type} {r c : Nat}

theorem mem_row {g : Grid α r c} {i : Fin r} {a : α} : a ∈ g.row i ↔ ∃ j, g.get i j = a := by
  simp [row]

theorem mem_column {g : Grid α r c} {j : Fin c} {a : α} : a ∈ g.column j ↔ ∃ i, g.get i j = a := by
  simp [column]

theorem mem_toList {g : Grid α r c} {a : α} : a ∈ g.toList ↔ ∃ i j, g.get i j = a := by
  simp [toList, entry]

section Amounts

variable [Zero α] [LE α] [DecidableLE α]

theorem leastOf?_row (g : Grid α r c) (i : Fin r) (hc : 0 < c) :
    leastOf? (g.row i) = some (g.rowLeasts.get i) := by
  obtain ⟨a, ha⟩ := leastOf?_isSome (mem_row.2 ⟨⟨0, hc⟩, rfl⟩ : g.get i ⟨0, hc⟩ ∈ g.row i)
  unfold rowLeasts
  rw [vector_get_ofFn, ha]
  rfl

theorem leastOf?_column (g : Grid α r c) (j : Fin c) (hr : 0 < r) :
    leastOf? (g.column j) = some (g.columnLeasts.get j) := by
  obtain ⟨a, ha⟩ := leastOf?_isSome (mem_column.2 ⟨⟨0, hr⟩, rfl⟩ : g.get ⟨0, hr⟩ j ∈ g.column j)
  unfold columnLeasts
  rw [vector_get_ofFn, ha]
  rfl

theorem greatestOf?_toList (g : Grid α r c) (i : Fin r) (j : Fin c) :
    greatestOf? g.toList = some g.top := by
  obtain ⟨a, ha⟩ := greatestOf?_isSome (mem_toList.2 ⟨i, j, rfl⟩ : g.get i j ∈ g.toList)
  unfold top
  rw [ha]
  rfl

theorem rowLeasts_mem (g : Grid α r c) (i : Fin r) (hc : 0 < c) :
    ∃ j, g.get i j = g.rowLeasts.get i :=
  mem_row.1 (leastOf?_mem (g.leastOf?_row i hc))

theorem columnLeasts_mem (g : Grid α r c) (j : Fin c) (hr : 0 < r) :
    ∃ i, g.get i j = g.columnLeasts.get j :=
  mem_column.1 (leastOf?_mem (g.leastOf?_column j hr))

theorem top_mem (g : Grid α r c) (i : Fin r) (j : Fin c) : ∃ k l, g.get k l = g.top :=
  mem_toList.1 (greatestOf?_mem (g.greatestOf?_toList i j))

/-! Among entries that are totally ordered the amounts are bounds. -/

section Bounds

variable {p : α → Prop} (hp : Ordered α p) {g : Grid α r c} (hg : ∀ i j, p (g.get i j))

include hp hg

theorem rowLeasts_le (i : Fin r) (j : Fin c) : g.rowLeasts.get i ≤ g.get i j := by
  apply leastOf?_le hp _ (g.leastOf?_row i j.pos) (mem_row.2 ⟨j, rfl⟩)
  intro b hb
  obtain ⟨l, rfl⟩ := mem_row.1 hb
  exact hg i l

theorem columnLeasts_le (i : Fin r) (j : Fin c) : g.columnLeasts.get j ≤ g.get i j := by
  apply leastOf?_le hp _ (g.leastOf?_column j i.pos) (mem_column.2 ⟨i, rfl⟩)
  intro b hb
  obtain ⟨l, rfl⟩ := mem_column.1 hb
  exact hg l j

theorem le_top (i : Fin r) (j : Fin c) : g.get i j ≤ g.top := by
  apply le_greatestOf? hp _ (g.greatestOf?_toList i j) (mem_toList.2 ⟨i, j, rfl⟩)
  intro b hb
  obtain ⟨k, l, rfl⟩ := mem_toList.1 hb
  exact hg k l

end Bounds

/-- The top is zero if there are no entries, and otherwise one of them. -/
theorem top_cases (g : Grid α r c) : g.top = 0 ∨ ∃ i j, g.get i j = g.top := by
  unfold top
  cases ha : greatestOf? g.toList with
  | none => exact .inl rfl
  | some a => exact .inr (mem_toList.1 (greatestOf?_mem ha))

variable [Sub α]

theorem get_lowerRows (g : Grid α r c) (i : Fin r) (j : Fin c) :
    g.lowerRows.get i j = g.get i j - g.rowLeasts.get i :=
  get_ofFn _ _ _

theorem get_lowerColumns (g : Grid α r c) (i : Fin r) (j : Fin c) :
    g.lowerColumns.get i j = g.get i j - g.columnLeasts.get j :=
  get_ofFn _ _ _

theorem get_reduce (g : Grid α r c) (i : Fin r) (j : Fin c) :
    g.reduce.get i j = g.get i j - g.rowLeasts.get i - g.lowerRows.columnLeasts.get j := by
  unfold reduce
  rw [get_lowerColumns, get_lowerRows]

/-! What all entries have is kept if taking a smaller entry from a larger one keeps it. -/

section Differences

variable {p : α → Prop} (hp : Ordered α p) (hsub : ∀ {x y}, p x → p y → y ≤ x → p (x - y))
  {g : Grid α r c} (hg : ∀ i j, p (g.get i j))

include hp hsub hg

theorem forall_lowerRows (i : Fin r) (j : Fin c) : p (g.lowerRows.get i j) := by
  obtain ⟨k, hk⟩ := g.rowLeasts_mem i j.pos
  rw [get_lowerRows]
  exact hsub (hg i j) (hk ▸ hg i k) (rowLeasts_le hp hg i j)

theorem forall_lowerColumns (i : Fin r) (j : Fin c) : p (g.lowerColumns.get i j) := by
  obtain ⟨k, hk⟩ := g.columnLeasts_mem j i.pos
  rw [get_lowerColumns]
  exact hsub (hg i j) (hk ▸ hg k j) (columnLeasts_le hp hg i j)

theorem forall_orient (direction : Direction) (i : Fin r) (j : Fin c) :
    p ((g.orient direction g.top).get i j) := by
  cases direction with
  | minimize => exact hg i j
  | maximize =>
      have hget : (g.orient .maximize g.top).get i j = g.top - g.get i j := get_map _ _ _ _
      obtain ⟨k, l, htop⟩ := g.top_mem i j
      rw [hget]
      exact hsub (htop ▸ hg k l) (hg i j) (le_top hp hg i j)

theorem forall_normalize (direction : Direction) (i : Fin r) (j : Fin c) :
    p ((g.normalize direction).get i j) :=
  forall_lowerColumns hp hsub (forall_lowerRows hp hsub (forall_orient hp hsub hg direction)) i j

end Differences

/-- In each column some entry is taken from itself. -/
theorem exists_reduce_eq_sub_self (g : Grid α r c) (j : Fin c) (hr : 0 < r) :
    ∃ i, g.reduce.get i j = g.lowerRows.get i j - g.lowerRows.get i j := by
  obtain ⟨i, hi⟩ := g.lowerRows.columnLeasts_mem j hr
  refine ⟨i, ?_⟩
  unfold reduce
  rw [get_lowerColumns, hi]

end Amounts

/-! ## Images -/

section Images

variable {β : Type}

theorem row_map (f : α → β) (g : Grid α r c) (i : Fin r) : (g.map f).row i = (g.row i).map f := by
  simp [row]

theorem column_map (f : α → β) (g : Grid α r c) (j : Fin c) :
    (g.map f).column j = (g.column j).map f := by
  simp [column]

theorem toList_map (f : α → β) (g : Grid α r c) : (g.map f).toList = g.toList.map f := by
  simp [toList, entry]

variable [LE α] [DecidableLE α] [LE β] [DecidableLE β]

/-- The order of the entries shows in their images. -/
def OrderedBy (f : α → β) (g : Grid α r c) : Prop :=
  ∀ i j k l, f (g.get i j) ≤ f (g.get k l) ↔ g.get i j ≤ g.get k l

variable [Zero α] [Zero β] {f : α → β} {g : Grid α r c}

theorem OrderedBy.rowLeasts_map (h : g.OrderedBy f) (i : Fin r) (hc : 0 < c) :
    (g.map f).rowLeasts.get i = f (g.rowLeasts.get i) := by
  have hleast : leastOf? ((g.map f).row i) = (leastOf? (g.row i)).map f := by
    rw [row_map]
    apply leastOf?_map
    intro a ha b hb
    obtain ⟨k, rfl⟩ := mem_row.1 ha
    obtain ⟨l, rfl⟩ := mem_row.1 hb
    exact h i k i l
  rw [leastOf?_row _ _ hc, leastOf?_row _ _ hc] at hleast
  exact Option.some.inj hleast

theorem OrderedBy.columnLeasts_map (h : g.OrderedBy f) (j : Fin c) (hr : 0 < r) :
    (g.map f).columnLeasts.get j = f (g.columnLeasts.get j) := by
  have hleast : leastOf? ((g.map f).column j) = (leastOf? (g.column j)).map f := by
    rw [column_map]
    apply leastOf?_map
    intro a ha b hb
    obtain ⟨k, rfl⟩ := mem_column.1 ha
    obtain ⟨l, rfl⟩ := mem_column.1 hb
    exact h k j l j
  rw [leastOf?_column _ _ hr, leastOf?_column _ _ hr] at hleast
  exact Option.some.inj hleast

theorem OrderedBy.top_map (h : g.OrderedBy f) (i : Fin r) (j : Fin c) :
    (g.map f).top = f g.top := by
  have hgreatest : greatestOf? (g.map f).toList = (greatestOf? g.toList).map f := by
    rw [toList_map]
    apply greatestOf?_map
    intro a ha b hb
    obtain ⟨k, l, rfl⟩ := mem_toList.1 ha
    obtain ⟨k', l', rfl⟩ := mem_toList.1 hb
    exact h k l k' l'
  rw [greatestOf?_toList _ i j, greatestOf?_toList _ i j] at hgreatest
  exact Option.some.inj hgreatest

theorem OrderedBy.top_map_of_zero (h : g.OrderedBy f) (hzero : f 0 = 0) :
    (g.map f).top = f g.top := by
  rcases g.top_cases with htop | ⟨i, j, -⟩
  · rcases (g.map f).top_cases with htop' | ⟨i, j, -⟩
    · rw [htop, htop', hzero]
    · exact h.top_map i j
  · exact h.top_map i j

variable [Sub α] [Sub β]

theorem OrderedBy.lowerRows_map (h : g.OrderedBy f)
    (hsub : ∀ i j, f (g.get i j - g.rowLeasts.get i) = f (g.get i j) - f (g.rowLeasts.get i)) :
    (g.map f).lowerRows = g.lowerRows.map f := by
  ext i j
  rw [get_lowerRows, get_map, get_map, get_lowerRows, h.rowLeasts_map i j.pos, hsub]

theorem OrderedBy.lowerColumns_map (h : g.OrderedBy f)
    (hsub : ∀ i j,
      f (g.get i j - g.columnLeasts.get j) = f (g.get i j) - f (g.columnLeasts.get j)) :
    (g.map f).lowerColumns = g.lowerColumns.map f := by
  ext i j
  rw [get_lowerColumns, get_map, get_map, get_lowerColumns, h.columnLeasts_map j i.pos, hsub]

theorem OrderedBy.orient_map (h : g.OrderedBy f) (direction : Direction)
    (hsub : ∀ i j, f (g.top - g.get i j) = f g.top - f (g.get i j)) :
    (g.map f).orient direction (g.map f).top = (g.orient direction g.top).map f := by
  cases direction with
  | minimize => rfl
  | maximize =>
      ext i j
      unfold orient
      simp only [get_map]
      rw [h.top_map i j, hsub]

end Images

/-! ## Exact arithmetic -/

section Exact

variable [AddCommGroup α] [LinearOrder α]

theorem reduce_nonneg [IsOrderedAddMonoid α] (g : Grid α r c) (i : Fin r) (j : Fin c) :
    0 ≤ g.reduce.get i j := by
  unfold reduce
  rw [get_lowerColumns, sub_nonneg]
  exact columnLeasts_le ordered_linear (fun _ _ => trivial) i j

/-- The entries as costs, which a normalization reduces. -/
def costs (direction : Direction) (g : Grid α r c) : Grid α r c :=
  g.orient direction g.top

/-- What the reduction takes from the rows and from the columns. -/
def reduced (g : Grid α r c) : α :=
  (∑ i, g.rowLeasts.get i) + ∑ j, g.lowerRows.columnLeasts.get j

/-- The total of the entries that a permutation picks. -/
def along {n : Nat} (g : Grid α n n) (σ : Equiv.Perm (Fin n)) : α :=
  ∑ i, g.get i (σ i)

theorem along_eq_reduced_add {n : Nat} (g : Grid α n n) (σ : Equiv.Perm (Fin n)) :
    g.along σ = g.reduced + g.reduce.along σ := by
  -- a permutation meets every column once
  have hcols : ∑ i, g.lowerRows.columnLeasts.get (σ i) = ∑ j, g.lowerRows.columnLeasts.get j :=
    Equiv.sum_comp σ fun j => g.lowerRows.columnLeasts.get j
  unfold along reduced
  simp only [get_reduce, Finset.sum_sub_distrib, hcols]
  abel

end Exact
end OptimalAssignment.Grid
