import OptimalAssignment.Hungarian.State

/-!
# Alternating chains

From a cell the chain goes to a star in its column, and from a star to a prime in its row.  It ends
where there is no such mark, and also where it would come back to one of its cells: each round takes
a cell that was not in the chain before, so every walk ends.
-/

namespace OptimalAssignment.Hungarian

variable {α : Type} {n : Nat}

/-- A chain under way: its cells, newest first, and the column it goes on from. -/
structure Walk (n : Nat) where
  cells : List (Cell n n)
  col : Fin n

inductive Walk.Round (n : Nat) where
  | stopped (cells : List (Cell n n))
  | continued (w : Walk n)

namespace Walk

/-- From the column to its star, and from the star's row to its prime. -/
def round (s : State α n) (w : Walk n) : Round n :=
  match s.starInColumn? w.col with
  | none => .stopped w.cells
  | some i =>
      if (i, w.col) ∈ w.cells then .stopped w.cells
      else
        let cells := (i, w.col) :: w.cells
        match s.primeInRow? i with
        | none => .stopped cells
        | some j =>
            if (i, j) ∈ cells then .stopped cells
            else .continued ⟨(i, j) :: cells, j⟩

theorem of_continued {s : State α n} {w v : Walk n} (h : w.round s = .continued v) :
    ∃ i k, s.starInColumn? w.col = some i ∧ (i, w.col) ∉ w.cells ∧ s.primeInRow? i = some k ∧
      (i, k) ∉ (i, w.col) :: w.cells ∧ v = ⟨(i, k) :: (i, w.col) :: w.cells, k⟩ := by
  unfold round at h
  split at h
  · cases h
  · rename_i i hs
    split at h
    · cases h
    · rename_i hout
      simp only [] at h
      split at h
      · cases h
      · rename_i k hp
        split at h
        · cases h
        · rename_i hnew
          cases h
          exact ⟨i, k, hs, hout, hp, hnew, rfl⟩

/-- The number of cells that are not in the chain. -/
def remaining (w : Walk n) : Nat :=
  (allCells n n).countP fun x => x ∉ w.cells

theorem remaining_lt {w : Walk n} {x : Cell n n} {cells : List (Cell n n)} {j : Fin n}
    (hx : x ∉ w.cells) (h : ∀ y, y = x ∨ y ∈ w.cells → y ∈ cells) :
    (Walk.mk cells j).remaining < w.remaining := by
  show (allCells n n).countP (fun y => decide (y ∉ cells)) <
    (allCells n n).countP fun y => decide (y ∉ w.cells)
  -- what was left before is still left, or it is new in the chain, as the cell is
  rw [List.countP_eq_countP_filter_add _ (fun y => decide (y ∉ w.cells))
    (fun y => decide (y ∉ cells))]
  have hleft : (allCells n n).countP (fun y => decide (y ∉ cells)) =
      ((allCells n n).filter fun y => decide (y ∉ cells)).countP
        fun y => decide (y ∉ w.cells) := by
    rw [List.countP_filter]
    apply List.countP_congr
    intro y _
    simp only [Bool.and_eq_true, decide_eq_true_eq]
    exact ⟨fun hy => ⟨fun hw => hy (h y (.inr hw)), hy⟩, fun hy => hy.2⟩
  have hnew : 0 < ((allCells n n).filter fun y => !decide (y ∉ cells)).countP
      fun y => decide (y ∉ w.cells) :=
    List.countP_pos_iff.2 ⟨x, by simp [h x (.inl rfl)], decide_eq_true hx⟩
  omega

theorem remaining_round {s : State α n} {w v : Walk n} (h : w.round s = .continued v) :
    v.remaining < w.remaining := by
  obtain ⟨i, k, -, hout, -, -, rfl⟩ := of_continued h
  refine remaining_lt hout ?_
  rintro y (rfl | hy)
  · simp
  · simp [hy]

def finish (s : State α n) (w : Walk n) : List (Cell n n) :=
  match _h : w.round s with
  | .stopped cells => cells
  | .continued v => finish s v
termination_by w.remaining
decreasing_by exact remaining_round _h

section Finish

variable {s : State α n} {w v : Walk n} {cells : List (Cell n n)}

theorem finish_of_stopped (h : w.round s = .stopped cells) : w.finish s = cells := by
  rw [finish]
  split
  · rename_i c hc
    rw [h] at hc
    cases hc
    rfl
  · rename_i v hv
    rw [h] at hv
    cases hv

theorem finish_of_continued (h : w.round s = .continued v) : w.finish s = v.finish s := by
  rw [finish]
  split
  · rename_i c hc
    rw [h] at hc
    cases hc
  · rename_i u hu
    rw [h] at hu
    cases hu
    rfl

end Finish

end Walk

/-- The cells of the chain from a cell, newest first. -/
def State.chain (s : State α n) (x : Cell n n) : List (Cell n n) :=
  Walk.finish s ⟨[x], x.2⟩

/-- The cells of the chain row by row. -/
def State.chainCells (s : State α n) (x : Cell n n) : List (Cell n n) :=
  let cells := s.chain x
  (allCells n n).filter fun y => y ∈ cells

end OptimalAssignment.Hungarian
