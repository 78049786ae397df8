import Mathlib.Data.List.Nodup
import OptimalAssignment.Grid

/-!
# Cells and entries

Every cell is listed once and row by row, a selection lists exactly the cells it is about, and a
vector reads as it was written.
-/

namespace OptimalAssignment

theorem nodup_allCells (r c : Nat) : (allCells r c).Nodup :=
  List.Nodup.product (List.nodup_finRange r) (List.nodup_finRange c)

/-- A later cell stands in a later row, or further right in the same one. -/
theorem rising_allCells (r c : Nat) :
    (allCells r c).Pairwise fun x y => x.1 < y.1 ∨ x.1 = y.1 ∧ x.2 < y.2 := by
  refine List.pairwise_flatMap.2 ⟨fun i _ => ?_, ?_⟩
  · exact List.pairwise_map.2 ((List.pairwise_lt_finRange c).imp fun hlt => .inr ⟨rfl, hlt⟩)
  · refine (List.pairwise_lt_finRange r).imp fun {i j} hlt x hx y hy => ?_
    obtain ⟨k, -, rfl⟩ := List.mem_map.1 hx
    obtain ⟨l, -, rfl⟩ := List.mem_map.1 hy
    exact .inl hlt

theorem index_lt {r c i j : Nat} (hi : i < r) (hj : j < c) : i * c + j < r * c := by
  have hrow : (i + 1) * c ≤ r * c := Nat.mul_le_mul_right c hi
  rw [Nat.succ_mul] at hrow
  omega

/-- In pieces of one length, the items of a piece stand where the pieces before it end. -/
theorem getElem?_flatMap {α β : Type} {f : α → List β} {as : List α} {c : Nat}
    (h : ∀ a ∈ as, (f a).length = c) (i : Nat) {j : Nat} (hj : j < c) :
    (as.flatMap f)[i * c + j]? = as[i]?.bind fun a => (f a)[j]? := by
  induction as generalizing i with
  | nil => rfl
  | cons a as ih =>
      have ha : (f a).length = c := h a List.mem_cons_self
      rw [List.flatMap_cons]
      cases i with
      -- the first piece ends behind the place, every other place is behind the first piece
      | zero =>
          rw [Nat.zero_mul, Nat.zero_add, List.getElem?_append_left (by omega)]
          rfl
      | succ i =>
          rw [Nat.succ_mul, List.getElem?_append_right (by omega), ha,
            show i * c + c + j - c = i * c + j by omega]
          exact ih (fun b hb => h b (List.mem_cons_of_mem _ hb)) i

theorem getElem?_allCells {r c : Nat} (i : Fin r) (j : Fin c) :
    (allCells r c)[i.val * c + j.val]? = some (i, j) := by
  unfold allCells
  rw [getElem?_flatMap (fun i _ => by simp) i.val j.isLt]
  simp

theorem length_allCells (r c : Nat) : (allCells r c).length = r * c := by
  simp [allCells]

theorem Grid.mem_select {β : Type} {r c : Nat} {p : β → Bool} {g : Grid β r c} {x : Cell r c} :
    x ∈ g.select p ↔ p (g.entry x) = true := by
  simp [Grid.select]

theorem Grid.nodup_select {β : Type} {r c : Nat} (p : β → Bool) (g : Grid β r c) :
    (g.select p).Nodup :=
  (nodup_allCells r c).filter _

theorem Grid.rising_select {β : Type} {r c : Nat} (p : β → Bool) (g : Grid β r c) :
    (g.select p).Pairwise fun x y => x.1 < y.1 ∨ x.1 = y.1 ∧ x.2 < y.2 :=
  (rising_allCells r c).filter _

/-- No cell before the first of a selection has the property. -/
theorem Grid.first_of_select {β : Type} {r c : Nat} {p : β → Bool} {g : Grid β r c}
    {i i' : Fin r} {j j' : Fin c} {rest : List (Cell r c)} (h : g.select p = (i, j) :: rest)
    (hbefore : i' < i ∨ i' = i ∧ j' < j) : p (g.get i' j') = false := by
  rw [← Bool.not_eq_true]
  intro hp
  have hmem : (i', j') ∈ g.select p := Grid.mem_select.2 hp
  have hrising := g.rising_select p
  rw [h] at hmem hrising
  rcases List.mem_cons.1 hmem with heq | hrest
  · cases heq
    omega
  · have hafter : i < i' ∨ i = i' ∧ j < j' := (List.pairwise_cons.1 hrising).1 _ hrest
    omega

theorem vector_get_set {β : Type} {n : Nat} (v : Vector β n) (i k : Fin n) (b : β) :
    (v.set i.val b i.isLt).get k = if i = k then b else v.get k := by
  show (v.set i.val b i.isLt)[k.val] = _
  rw [Vector.getElem_set]
  by_cases h : i = k
  · rw [if_pos (congrArg Fin.val h), if_pos h]
  · rw [if_neg (fun e => h (Fin.ext e)), if_neg h]; rfl

@[simp] theorem vector_get_replicate {β : Type} {n : Nat} (b : β) (k : Fin n) :
    (Vector.replicate n b).get k = b := by
  show (Vector.replicate n b)[k.val] = b
  exact Vector.getElem_replicate k.isLt

theorem not_get_replicate_false {n : Nat} (k : Fin n) :
    ¬(Vector.replicate n false).get k = true := by
  simp

@[simp] theorem vector_get_ofFn {β : Type} {n : Nat} (f : Fin n → β) (k : Fin n) :
    (Vector.ofFn f).get k = f k := by
  show (Vector.ofFn f)[k.val] = f k
  rw [Vector.getElem_ofFn]

end OptimalAssignment
